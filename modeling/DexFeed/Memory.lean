import DexFeed.Bytes

/-!
# Memory

A buffer is a stretch of memory, and there are bytes in front of it and behind it that belong to
others. A `Probe` is a computation that learns a byte only by looking at its position. `run` tells
what it comes to in a memory, and `touched` at which positions it looks for that; `run_congr` says
that it depends on nothing else.
-/

namespace DexFeed

/-- A byte at every position. -/
abbrev Memory : Type :=
  Nat → UInt8

/-- The bytes of a stretch of `n` positions. -/
def Memory.span (memory : Memory) (start : Nat) : Nat → Bytes
  | 0 => []
  | n + 1 => memory start :: memory.span (start + 1) n

/-- A computation over a memory. -/
inductive Probe (α : Type)
  /-- The computation has come to its result. -/
  | result (x : α)
  /-- It looks at the byte at a position and goes on with what is there. -/
  | look (position : Nat) (next : UInt8 → Probe α)

namespace Probe

variable {α β : Type}

/-- One computation and then another that depends on its result. -/
def bind : Probe α → (α → Probe β) → Probe β
  | result x, f => f x
  | look i next, f => look i fun b => (next b).bind f

instance : Monad Probe where
  pure := result
  bind := bind

/-- What a computation comes to. -/
def run (memory : Memory) : Probe α → α
  | result x => x
  | look i next => (next (memory i)).run memory

/-- The positions that a computation looks at, in order. -/
def touched (memory : Memory) : Probe α → List Nat
  | result _ => []
  | look i next => i :: (next (memory i)).touched memory

/-- The bytes of a stretch, looked at from the first to the last. -/
def fetch (start : Nat) : Nat → Probe Bytes
  | 0 => result []
  | n + 1 => look start fun b => (fetch (start + 1) n).bind fun bs => result (b :: bs)

/-- A computation that looks at no position outside a stretch. -/
def Within (memory : Memory) (low high : Nat) (p : Probe α) : Prop :=
  ∀ i ∈ p.touched memory, low ≤ i ∧ i < high

end Probe

/-! ## Small laws of the parts -/

namespace Memory

/-- A span is as long as it says. -/
@[simp] theorem length_span (memory : Memory) (start n : Nat) :
    (memory.span start n).length = n := by
  induction n generalizing start with
  | zero => rfl
  | succ n ih => rw [span, List.length_cons, ih]

/-- Behind its first bytes a span goes on as the span that starts there. -/
theorem drop_span (memory : Memory) (start n k : Nat) :
    (memory.span start n).drop k = memory.span (start + k) (n - k) := by
  induction k generalizing start n with
  | zero => rfl
  | succ k ih =>
    cases n with
    | zero => rw [Nat.zero_sub, span, span, List.drop_nil]
    | succ n =>
      rw [span, List.drop_succ_cons, ih, Nat.add_sub_add_right, Nat.add_right_comm]
      rfl

/-- The beginning of a span is the shorter span. -/
theorem take_span (memory : Memory) (start : Nat) {n k : Nat} (h : k ≤ n) :
    (memory.span start n).take k = memory.span start k := by
  induction k generalizing start n with
  | zero => rfl
  | succ k ih =>
    obtain ⟨n, rfl⟩ : ∃ m, n = m + 1 := ⟨n - 1, by omega⟩
    rw [span, span, List.take_succ_cons, ih (start + 1) (Nat.le_of_succ_le_succ h)]

end Memory

namespace Probe

variable {α β : Type} {memory memory' : Memory} {p : Probe α} {f : α → Probe β} {low high : Nat}

/-- A result is the same in every memory. -/
@[simp] theorem run_pure (x : α) : (pure x : Probe α).run memory = x := rfl

/-- A sequence comes to what its second part comes to behind the first. -/
@[simp] theorem run_bind (p : Probe α) (f : α → Probe β) :
    (p >>= f).run memory = (f (p.run memory)).run memory := by
  induction p with
  | result x => rfl
  | look i next ih => exact ih (memory i)

/-- A sequence looks where its parts look, the second part as it goes on in this memory. -/
theorem touched_bind (p : Probe α) (f : α → Probe β) :
    (p >>= f).touched memory = p.touched memory ++ (f (p.run memory)).touched memory := by
  induction p with
  | result x => rfl
  | look i next ih => exact congrArg (i :: ·) (ih (memory i))

/-- A computation depends on no byte that it does not look at. -/
theorem run_congr (h : ∀ i ∈ p.touched memory, memory' i = memory i) :
    p.run memory' = p.run memory := by
  induction p with
  | result x => rfl
  | look i next ih =>
    obtain ⟨hi, hnext⟩ := List.forall_mem_cons.1 h
    show (next (memory' i)).run memory' = (next (memory i)).run memory
    rw [hi]
    exact ih (memory i) hnext

/-- A result looks nowhere, hence within any bounds. -/
theorem within_pure (x : α) : (pure x : Probe α).Within memory low high :=
  List.forall_mem_nil _

/-- One look inside the bounds may come first. -/
theorem Within.look {i : Nat} {next : UInt8 → Probe α} (hi : low ≤ i ∧ i < high)
    (h : (next (memory i)).Within memory low high) : (Probe.look i next).Within memory low high :=
  List.forall_mem_cons.2 ⟨hi, h⟩

/-- A sequence stays within the bounds of its parts. -/
theorem Within.bind (hp : p.Within memory low high)
    (hf : (f (p.run memory)).Within memory low high) : (p >>= f).Within memory low high := by
  rw [Within, touched_bind]
  exact List.forall_mem_append.2 ⟨hp, hf⟩

/-- Bounds may be widened. -/
theorem Within.mono (h : p.Within memory low high) {low' high' : Nat} (hlow : low' ≤ low)
    (hhigh : high ≤ high') : p.Within memory low' high' := by
  intro i hi
  obtain ⟨hle, hlt⟩ := h i hi
  exact ⟨Nat.le_trans hlow hle, Nat.lt_of_lt_of_le hlt hhigh⟩

/-- Fetching gives the span. -/
@[simp] theorem run_fetch (start n : Nat) : (fetch start n).run memory = memory.span start n := by
  induction n generalizing start with
  | zero => rfl
  | succ n ih =>
    show ((fetch (start + 1) n >>= fun bs => pure (memory start :: bs)).run memory) = _
    rw [run_bind, ih]
    rfl

/-- Fetching looks at the bytes of the span only. -/
theorem within_fetch (start n : Nat) : (fetch start n).Within memory start (start + n) := by
  induction n generalizing start with
  | zero => exact within_pure _
  | succ n ih =>
    refine Within.look ⟨Nat.le_refl _, by omega⟩ ?_
    exact Within.bind ((ih (start + 1)).mono (by omega) (by omega)) (within_pure _)

end Probe

end DexFeed
