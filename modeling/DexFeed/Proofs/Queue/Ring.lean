import Mathlib.Data.List.Basic
import Mathlib.Data.Nat.ModEq
import DexFeed.Proofs.Queue.Capacity
import DexFeed.Queue.Backlog

/-!
# A ring holds a list

Count the values that were ever taken off and those that were ever appended as plain numbers. The
cells of the next `2 ^ k` positions, from the oldest value on, are then exactly the cells of the
ring: the first of them hold the values that wait, each with a sequence number one above its
position, and the others are free, each with its own position as sequence number. `Holds` says so.
Positions enter the ring only modulo `2 ^ 64`, which a lap divides, so nothing happens when they
wrap around. Appending and taking off keep the invariant, and what waits behaves as a list.
-/

namespace DexFeed

/-! ## Signed distances -/

/-- A word is negative when its highest bit is set. -/
theorem toInt64_neg_iff (x : UInt64) : x.toInt64 < 0 ↔ 2 ^ 63 ≤ x.toNat := by
  have hx : x.toInt64.toInt = x.toBitVec.toInt := rfl
  rw [Int64.lt_iff_toInt_lt, hx, Int64.toInt_zero, BitVec.toInt_neg_iff, UInt64.toNat_toBitVec]
  omega

/-- A sequence number that is as expected makes a cell ready. -/
theorem Turn.of_self (x : UInt64) : Turn.of x x = .ready := by
  have hzero : (x - x).toInt64 = 0 := by
    rw [UInt64.sub_self]
    rfl
  rw [Turn.of, hzero]
  rfl

/-- A sequence number that is less than half of all numbers short makes a cell late. -/
theorem Turn.of_behind {x y : UInt64} (h : 2 ^ 63 ≤ (x - y).toNat) : Turn.of x y = .behind := by
  have hneg : (x - y).toInt64 < 0 := (toInt64_neg_iff _).mpr h
  have hne : (x - y).toInt64 ≠ 0 := by
    intro hzero
    rw [hzero] at hneg
    exact absurd hneg (by decide)
  simp only [Turn.of, if_neg hne, if_pos hneg]

/-- The difference of a position and one up to half a turn ahead of it is negative, also where the
words have wrapped. -/
theorem toNat_ofNat_sub {p q : Nat} (hpq : p < q) (hq : q ≤ p + 2 ^ 63) :
    2 ^ 63 ≤ (UInt64.ofNat p - UInt64.ofNat q).toNat := by
  rw [UInt64.toNat_sub, UInt64.toNat_ofNat', UInt64.toNat_ofNat']
  omega

/-- The next position is the next word, also across the wrap. -/
theorem ofNat_add_one (p : Nat) : UInt64.ofNat p + 1 = UInt64.ofNat (p + 1) :=
  (UInt64.ofNat_add p 1).symm

/-- The cell of a position that waits for a value or holds one. -/
def Cell.standing {α : Type} (position : Nat) : Option α → Cell α
  | some x => ⟨UInt64.ofNat (position + 1), some x⟩
  | none => ⟨UInt64.ofNat position, none⟩

namespace Ring

variable {α : Type} {r : Ring α} {k first : Nat} {items : List α} {x : α}

/-! ## Cells -/

/-- Every position has its cell. -/
theorem getElem?_cells (r : Ring α) (position : UInt64) :
    r.cells[r.index position]? = some (r.cell position) :=
  Array.getElem?_eq_getElem (r.index_lt position)

/-- Replacing a position's cell changes the cells of the positions of the same index. -/
theorem cell_of_replace {s : Ring α} {position : UInt64} {c : Cell α} (hmask : s.mask = r.mask)
    (hcells : s.cells = r.replace position c) (other : UInt64) :
    s.cell other = if r.index position = r.index other then c else r.cell other := by
  have hindex : s.index other = r.index other := by
    rw [index, index, hmask]
  have hcell := s.getElem?_cells other
  rw [hcells, hindex, replace, Array.getElem?_set] at hcell
  split at hcell
  · rw [if_pos ‹_›]
    exact (Option.some.inj hcell).symm
  · rw [if_neg ‹_›]
    rw [getElem?_cells] at hcell
    exact (Option.some.inj hcell).symm

/-- The capacity is the number of cells. -/
theorem toNat_capacity_of_size (hsize : r.mask.toNat + 1 = 2 ^ k) (hk : k ≤ 63) :
    r.capacity.toNat = 2 ^ k := by
  have hlt : 2 ^ k < 2 ^ 64 := Nat.pow_lt_pow_right (by decide) (by omega)
  have hone : (1 : UInt64).toNat = 1 := rfl
  rw [capacity, UInt64.toNat_add, hone, hsize, Nat.mod_eq_of_lt hlt]

/-- Masking a position is reducing it modulo the number of cells. -/
theorem index_ofNat (hsize : r.mask.toNat + 1 = 2 ^ k) (hk : k ≤ 63) (position : Nat) :
    r.index (UInt64.ofNat position) = position % 2 ^ k := by
  have hmask : r.mask.toNat = 2 ^ k - 1 := by omega
  have hlap : 2 ^ k ∣ 2 ^ 64 := Nat.pow_dvd_pow 2 (by omega)
  rw [index, UInt64.toNat_and, hmask, Nat.and_two_pow_sub_one_eq_mod, UInt64.toNat_ofNat',
    Nat.mod_mod_of_dvd _ hlap]

/-- Two positions within a lap of one another have different cells. -/
theorem index_ne (hsize : r.mask.toNat + 1 = 2 ^ k) (hk : k ≤ 63) {i j : Nat} (hi : i < 2 ^ k)
    (hj : j < 2 ^ k) (hij : i ≠ j) :
    r.index (UInt64.ofNat (first + i)) ≠ r.index (UInt64.ofNat (first + j)) := by
  rw [index_ofNat hsize hk, index_ofNat hsize hk]
  intro h
  have hsame : i % 2 ^ k = j % 2 ^ k := Nat.ModEq.add_left_cancel' first h
  rw [Nat.mod_eq_of_lt hi, Nat.mod_eq_of_lt hj] at hsame
  exact hij hsame

/-- A position and the one a lap ahead of it have the same cell. -/
theorem index_lap (hsize : r.mask.toNat + 1 = 2 ^ k) (hk : k ≤ 63) (position : Nat) :
    r.index (UInt64.ofNat (position + 2 ^ k)) = r.index (UInt64.ofNat position) := by
  rw [index_ofNat hsize hk, index_ofNat hsize hk, Nat.add_mod_right]

/-! ## The invariant -/

/-- A ring of `2 ^ k` cells holds some values, the oldest of them at a position. -/
structure Holds (r : Ring α) (k first : Nat) (items : List α) : Prop where
  /-- The mask has one bit for each halving of the ring. -/
  size_eq : r.mask.toNat + 1 = 2 ^ k
  /-- A full ring can be told from an empty one. -/
  one_le : 1 ≤ k
  /-- Signed distances within a lap are exact. -/
  le_bits : k ≤ 63
  /-- The oldest value is at the head. -/
  head_eq : r.head = UInt64.ofNat first
  /-- The values stand side by side. -/
  tail_eq : r.tail = UInt64.ofNat (first + items.length)
  /-- There is a cell for each value. -/
  length_le : items.length ≤ 2 ^ k
  /-- The cells of one lap. -/
  cell_eq : ∀ i < 2 ^ k, r.cell (UInt64.ofNat (first + i)) = Cell.standing (first + i) items[i]?

/-- The capacity is the number of cells. -/
theorem Holds.toNat_capacity (h : r.Holds k first items) : r.capacity.toNat = 2 ^ k :=
  toNat_capacity_of_size h.size_eq h.le_bits

/-- While there is room the cell at the tail waits for a push. -/
theorem Holds.pushTurn_of_room (h : r.Holds k first items) (hroom : items.length < 2 ^ k) :
    r.pushTurn = .ready := by
  rw [pushTurn, h.tail_eq, h.cell_eq _ hroom, List.getElem?_eq_none (Nat.le_refl _)]
  exact Turn.of_self _

/-- In a full ring the cell at the tail still has the value of the last lap. -/
theorem Holds.pushTurn_of_full (h : r.Holds k first items) (hfull : items.length = 2 ^ k) :
    r.pushTurn = .behind := by
  have htwo : 2 ^ 1 ≤ 2 ^ k := Nat.pow_le_pow_right (by decide) h.one_le
  have hhalf : 2 ^ k ≤ 2 ^ 63 := Nat.pow_le_pow_right (by decide) h.le_bits
  have hpos : 0 < items.length := by omega
  obtain ⟨x, hx⟩ : ∃ x, items[0]? = some x := ⟨items[0], List.getElem?_eq_getElem hpos⟩
  -- The cell behind the newest value is the one of the oldest, a lap before.
  have hcell : r.cell r.tail = r.cell (UInt64.ofNat (first + 0)) := by
    have hindex : r.index r.tail = r.index (UInt64.ofNat (first + 0)) := by
      rw [h.tail_eq, hfull, index_lap h.size_eq h.le_bits, Nat.add_zero]
    have hleft := r.getElem?_cells r.tail
    rw [hindex, getElem?_cells] at hleft
    exact (Option.some.inj hleft).symm
  rw [pushTurn, hcell, h.cell_eq 0 (by omega), hx, h.tail_eq, hfull]
  exact Turn.of_behind (toNat_ofNat_sub (by omega) (by omega))

/-- While there is a value the cell at the head waits for a pop. -/
theorem Holds.popTurn_of_cons (h : r.Holds k first (x :: items)) : r.popTurn = .ready := by
  have hcell := h.cell_eq 0 (Nat.two_pow_pos k)
  rw [Nat.add_zero] at hcell
  rw [popTurn, h.head_eq, hcell, ofNat_add_one]
  exact Turn.of_self _

/-- In an empty ring the cell at the head still waits for a push. -/
theorem Holds.popTurn_of_nil (h : r.Holds k first []) : r.popTurn = .behind := by
  have hcell := h.cell_eq 0 (Nat.two_pow_pos k)
  rw [Nat.add_zero] at hcell
  rw [popTurn, h.head_eq, hcell, ofNat_add_one]
  exact Turn.of_behind (toNat_ofNat_sub (by omega) (by omega))

/-! ## Appending and taking off -/

/-- The ring with a position's cell replaced. -/
def refilled (r : Ring α) (position : UInt64) (c : Cell α) : Ring α :=
  { r with cells := r.replace position c, size_cells := r.size_replace position c }

/-- The ring after a value was appended. -/
def appended (r : Ring α) (x : α) : Ring α :=
  { r.refilled r.tail ⟨r.tail + 1, some x⟩ with tail := r.tail + 1 }

/-- The ring after the oldest value was taken off. -/
def advanced (r : Ring α) : Ring α :=
  { r.refilled r.head ⟨r.head + r.mask + 1, none⟩ with head := r.head + 1 }

/-- While there is room a push appends. -/
theorem Holds.push_of_room (h : r.Holds k first items) (hroom : items.length < 2 ^ k) (x : α) :
    r.push x = (true, r.appended x) := by
  rw [push, h.pushTurn_of_room hroom]
  rfl

/-- A push to a full ring is counted and changes nothing else. -/
theorem Holds.push_of_full (h : r.Holds k first items) (hfull : items.length = 2 ^ k) (x : α) :
    r.push x = (false, { r with dropped := r.dropped + 1 }) := by
  rw [push, h.pushTurn_of_full hfull]

/-- While there is a value a pop takes the oldest. -/
theorem Holds.pop_of_cons (h : r.Holds k first (x :: items)) : r.pop = (some x, r.advanced) := by
  have hvalue : (r.cell r.head).value = some x := by
    have hcell := h.cell_eq 0 (Nat.two_pow_pos k)
    rw [Nat.add_zero] at hcell
    rw [h.head_eq, hcell]
    rfl
  rw [pop, h.popTurn_of_cons, hvalue]
  rfl

/-- A pop from an empty ring changes nothing. -/
theorem Holds.pop_of_nil (h : r.Holds k first []) : r.pop = (none, r) := by
  rw [pop, h.popTurn_of_nil]

/-- The appended value is the latest; the other cells of the lap are those before. -/
theorem Holds.appended (h : r.Holds k first items) (hroom : items.length < 2 ^ k) (x : α) :
    (r.appended x).Holds k first (items ++ [x]) where
  size_eq := h.size_eq
  one_le := h.one_le
  le_bits := h.le_bits
  head_eq := h.head_eq
  tail_eq := by
    rw [List.length_append, List.length_singleton, ← Nat.add_assoc, ← ofNat_add_one, ← h.tail_eq]
    rfl
  length_le := by
    rw [List.length_append, List.length_singleton]
    exact hroom
  cell_eq := by
    intro i hi
    have hcell := cell_of_replace (r := r) (s := r.appended x) rfl rfl (UInt64.ofNat (first + i))
    rw [hcell, h.tail_eq]
    by_cases he : i = items.length
    · rw [he, if_pos rfl, List.getElem?_concat_length, ofNat_add_one]
      rfl
    · rw [if_neg (index_ne h.size_eq h.le_bits hroom hi (Ne.symm he)), h.cell_eq i hi]
      by_cases hlt : i < items.length
      · rw [List.getElem?_append_left hlt]
      · have hlength : (items ++ [x]).length ≤ i := by
          rw [List.length_append, List.length_singleton]
          omega
        rw [List.getElem?_eq_none (Nat.not_lt.mp hlt), List.getElem?_eq_none hlength]

/-- Without its oldest value the ring holds the others, one position on; the cell is free for the
next lap. -/
theorem Holds.advanced (h : r.Holds k first (x :: items)) :
    r.advanced.Holds k (first + 1) items where
  size_eq := h.size_eq
  one_le := h.one_le
  le_bits := h.le_bits
  head_eq := by
    rw [← ofNat_add_one, ← h.head_eq]
    rfl
  tail_eq := by
    rw [Nat.add_assoc, Nat.add_comm 1]
    exact h.tail_eq
  length_le := Nat.le_of_succ_le h.length_le
  cell_eq := by
    intro i hi
    have hlength := h.length_le
    rw [List.length_cons] at hlength
    have hposition : first + 1 + i = first + (i + 1) := by omega
    have hcell := cell_of_replace (r := r) (s := r.advanced) rfl rfl (UInt64.ofNat (first + 1 + i))
    rw [hcell, h.head_eq, hposition]
    by_cases he : i + 1 = 2 ^ k
    · -- The emptied cell waits for the position a lap ahead.
      have hlap : UInt64.ofNat first + r.mask + 1 = UInt64.ofNat (first + 2 ^ k) := by
        rw [← h.size_eq, UInt64.ofNat_add, UInt64.ofNat_add, UInt64.ofNat_toNat, UInt64.add_assoc]
        rfl
      rw [he, index_lap h.size_eq h.le_bits, if_pos rfl, hlap,
        List.getElem?_eq_none (by omega)]
      rfl
    · have hne : r.index (UInt64.ofNat first) ≠ r.index (UInt64.ofNat (first + (i + 1))) :=
        index_ne h.size_eq h.le_bits (Nat.two_pow_pos k) (by omega) (by omega)
      rw [if_neg hne, h.cell_eq (i + 1) (by omega), List.getElem?_cons_succ]

/-! ## What can be seen of a ring -/

/-- The distance between the positions is the number of values. -/
theorem Holds.span_eq (h : r.Holds k first items) : r.span = items.length := by
  have hle : 2 ^ k ≤ 2 ^ 63 := Nat.pow_le_pow_right (by decide) h.le_bits
  have hlength := h.length_le
  rw [span, h.head_eq, h.tail_eq, UInt64.toNat_sub, UInt64.toNat_ofNat', UInt64.toNat_ofNat']
  omega

/-- A list is read off by its indices. -/
theorem filterMap_range_getElem? (items : List α) :
    (List.range items.length).filterMap (items[·]?) = items := by
  induction items with
  | nil => rfl
  | cons x items ih =>
    rw [List.length_cons, List.range_succ_eq_map, List.filterMap_cons, List.getElem?_cons_zero,
      List.filterMap_map]
    exact congrArg (x :: ·) ih

/-- The values read off the cells are those that the ring holds. -/
theorem Holds.toList_eq (h : r.Holds k first items) : r.toList = items := by
  have hvalue : ∀ i ∈ List.range items.length,
      (r.cell (r.head + UInt64.ofNat i)).value = items[i]? := by
    intro i hi
    have hlt := List.mem_range.mp hi
    have hlength := h.length_le
    rw [h.head_eq, ← UInt64.ofNat_add, h.cell_eq i (by omega), List.getElem?_eq_getElem hlt]
    rfl
  rw [toList, h.span_eq, List.filterMap_congr hvalue, filterMap_range_getElem?]

/-- As long as the positions have not wrapped around, the number of values is counted right. -/
theorem Holds.size_eq_length (h : r.Holds k first items) (hlt : first + items.length < 2 ^ 64) :
    r.size = items.length := by
  have hhead : r.head.toNat = first := by
    rw [h.head_eq, UInt64.toNat_ofNat', Nat.mod_eq_of_lt (by omega)]
  have htail : r.tail.toNat = first + items.length := by
    rw [h.tail_eq, UInt64.toNat_ofNat', Nat.mod_eq_of_lt hlt]
  have hless : r.head < r.tail ↔ 0 < items.length := by
    rw [UInt64.lt_iff_toNat_lt, hhead, htail]
    omega
  by_cases hpos : 0 < items.length
  · rw [size, if_pos (hless.mpr hpos)]
    exact h.span_eq
  · rw [size, if_neg (mt hless.mp hpos)]
    omega

/-- A new ring holds nothing and, if the request can be met, has at least the room asked for. -/
theorem holds_empty (n : UInt64) :
    ∃ k, (empty n : Ring α).Holds k 0 [] ∧ (n.toNat ≤ 2 ^ 63 → n.toNat ≤ 2 ^ k) := by
  obtain ⟨k, hone, hbits, heq, hle, -⟩ := Capacity.roundUp_eq n
  have hpos : 0 < 2 ^ k := Nat.two_pow_pos k
  have hsize : (Capacity.roundUp n - 1).toNat + 1 = 2 ^ k := by
    have hone' : (1 : UInt64).toNat = 1 := rfl
    have hlt : 2 ^ k < 2 ^ 64 := Nat.pow_lt_pow_right (by decide) (by omega)
    rw [UInt64.toNat_sub, hone', heq]
    omega
  refine ⟨k, ⟨hsize, hone, hbits, rfl, rfl, Nat.zero_le _, fun i hi => ?_⟩, hle⟩
  have hindex : (empty n : Ring α).index (UInt64.ofNat (0 + i)) = i := by
    rw [index_ofNat hsize hbits, Nat.zero_add, Nat.mod_eq_of_lt hi]
  have hcell := (empty n : Ring α).getElem?_cells (UInt64.ofNat (0 + i))
  rw [hindex] at hcell
  have hfn : (empty n : Ring α).cells[i]? = some ⟨UInt64.ofNat i, none⟩ := by
    rw [empty, Array.getElem?_ofFn, dif_pos (by omega)]
  rw [hfn] at hcell
  rw [← Option.some.inj hcell, Nat.zero_add]
  rfl

end Ring

end DexFeed
