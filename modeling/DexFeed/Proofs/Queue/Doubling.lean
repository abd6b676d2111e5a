import Mathlib.Logic.Relation
import Mathlib.Order.Bounds.Defs
import DexFeed.Proofs.Queue.Fifo

/-!
# Doubling ends, and masking goes round

A capacity is doubled as long as it is smaller than the request. For requests up to `2 ^ 63` this
ends at the least power of two that is large enough, before a doubling loses the leading bit; for a
larger request the bit is lost, the capacity is zero from then on, and doubling never ends. The mask
of a power of two reduces a position modulo the capacity, and since the capacity divides `2 ^ 64`,
the positions that follow one another visit the cells in turn even where they wrap around.
-/

namespace DexFeed

/-! ## Doubling -/

namespace Capacity

variable {n c : UInt64}

/-- A doubling, which is made for a capacity that is smaller than the request. -/
def Doubles (n c doubled : UInt64) : Prop :=
  c < n ∧ doubled = c <<< 1

/-- Doubling from 2 on arrives at a capacity. -/
def Reaches (n c : UInt64) : Prop :=
  Relation.ReflTransGen (Doubles n) 2 c

/-- Doubling from 2 on ends with a capacity. -/
def Settles (n c : UInt64) : Prop :=
  Reaches n c ∧ ¬c < n

/-- The loop makes doublings only. -/
theorem reflTransGen_double (n : UInt64) (steps : Nat) (c : UInt64) :
    Relation.ReflTransGen (Doubles n) c (double n steps c) := by
  induction steps generalizing c with
  | zero => exact Relation.ReflTransGen.refl
  | succ steps ih =>
    rw [double]
    by_cases hlt : c < n
    · rw [if_pos hlt]
      exact Relation.ReflTransGen.head ⟨hlt, rfl⟩ (ih _)
    · rw [if_neg hlt]

/-- Doubling passes through powers of two until the leading bit is lost. -/
theorem Reaches.power_or_zero (h : Reaches n c) : (∃ j ≤ 63, c.toNat = 2 ^ j) ∨ c = 0 := by
  induction h with
  | refl => exact Or.inl ⟨1, by decide, rfl⟩
  | tail _ hstep ih =>
    obtain ⟨-, rfl⟩ := hstep
    rcases ih with ⟨j, hj, hc⟩ | rfl
    · rcases Nat.eq_or_lt_of_le hj with rfl | hlt
      · -- The only bit of `2 ^ 63` is shifted out.
        refine Or.inr (UInt64.toNat_inj.mp ?_)
        rw [UInt64.toNat_shiftLeft, hc]
        rfl
      · exact Or.inl ⟨j + 1, hlt, toNat_doubled hc hlt⟩
    · exact Or.inr rfl

/-- No doubling for a request up to `2 ^ 63` loses the leading bit. -/
theorem Reaches.toNat_of_doubles (h : Reaches n c) (hn : n.toNat ≤ 2 ^ 63) {doubled : UInt64}
    (hstep : Doubles n c doubled) : doubled.toNat = 2 * c.toNat := by
  obtain ⟨hlt, rfl⟩ := hstep
  rcases h.power_or_zero with ⟨j, -, hc⟩ | rfl
  · rw [UInt64.lt_iff_toNat_lt, hc] at hlt
    have hj : j < 63 := (Nat.pow_lt_pow_iff_right (by decide)).mp (Nat.lt_of_lt_of_le hlt hn)
    rw [toNat_doubled hc hj, hc, Nat.pow_succ']
  · rfl

/-- The loop ends: with a request of at most `2 ^ 63` its steps are enough. -/
theorem settles_roundUp (hn : n.toNat ≤ 2 ^ 63) : Settles n (roundUp n) := by
  obtain ⟨k, -, -, heq, hle, -⟩ := roundUp_eq n
  refine ⟨reflTransGen_double n 62 2, ?_⟩
  rw [UInt64.lt_iff_toNat_lt, heq, Nat.not_lt]
  exact hle hn

/-- Where doubling ends it has not gone on from there. -/
theorem Settles.eq_of_reachable {d : UInt64} (h : Settles n c)
    (hreach : Relation.ReflTransGen (Doubles n) c d) : d = c := by
  rcases hreach.cases_head with heq | ⟨doubled, hstep, -⟩
  · exact heq.symm
  · exact absurd hstep.1 h.2

/-- Doubling can end with one capacity only. -/
theorem Settles.unique {d : UInt64} (hc : Settles n c) (hd : Settles n d) : c = d := by
  have hunique : Relator.RightUnique (Doubles n) := by
    rintro a b b' ⟨-, rfl⟩ ⟨-, rfl⟩
    rfl
  rcases Relation.ReflTransGen.total_of_right_unique hunique hc.1 hd.1 with hcd | hdc
  · exact (hc.eq_of_reachable hcd).symm
  · exact hd.eq_of_reachable hdc

/-- Doubling ends exactly for the requests up to `2 ^ 63`, and then with the capacity to which they
are rounded up. -/
theorem settles_iff : Settles n c ↔ n.toNat ≤ 2 ^ 63 ∧ c = roundUp n := by
  constructor
  · intro h
    have hle : c.toNat ≤ 2 ^ 63 := by
      rcases h.1.power_or_zero with ⟨j, hj, hc⟩ | rfl
      · rw [hc]
        exact Nat.pow_le_pow_right (by decide) hj
      · exact Nat.zero_le _
    have hn : n.toNat ≤ c.toNat := Nat.not_lt.mp fun hlt => h.2 (UInt64.lt_iff_toNat_lt.mpr hlt)
    exact ⟨hn.trans hle, h.unique (settles_roundUp (hn.trans hle))⟩
  · rintro ⟨hn, rfl⟩
    exact settles_roundUp hn

/-- Rounding up gives the least power of two that is no smaller than the request and than 2. -/
theorem isLeast_roundUp (hn : n.toNat ≤ 2 ^ 63) :
    IsLeast {m | (∃ k, m = 2 ^ k) ∧ max n.toNat 2 ≤ m} (roundUp n).toNat := by
  obtain ⟨k, hone, -, heq, hle, hleast⟩ := roundUp_eq n
  have htwo : 2 ^ 1 ≤ 2 ^ k := Nat.pow_le_pow_right (by decide) hone
  refine ⟨⟨⟨k, heq⟩, heq ▸ Nat.max_le.mpr ⟨hle hn, htwo⟩⟩, ?_⟩
  rintro m ⟨⟨i, rfl⟩, hm⟩
  rw [heq]
  obtain ⟨hni, hti⟩ := Nat.max_le.mp hm
  have hi : 1 ≤ i := (Nat.pow_le_pow_iff_right (by decide : 1 < 2)).mp hti
  refine Nat.pow_le_pow_right (by decide) (Nat.not_lt.mp fun hik => ?_)
  exact absurd (hleast i hi hik) (Nat.not_lt.mpr hni)

end Capacity

/-! ## Masking -/

namespace Ring

variable {α : Type} {r : Ring α} {k : Nat}

/-- The mask takes a position modulo the size. -/
theorem index_eq_mod (hsize : r.mask.toNat + 1 = 2 ^ k) (hk : k ≤ 63) (position : UInt64) :
    r.index position = position.toNat % 2 ^ k := by
  have hindex := index_ofNat hsize hk position.toNat
  rwa [UInt64.ofNat_toNat] at hindex

/-- Masking a word is reducing it modulo the capacity. -/
theorem and_mask (hsize : r.mask.toNat + 1 = 2 ^ k) (hk : k ≤ 63) (position : UInt64) :
    position &&& r.mask = position % r.capacity := by
  rw [← UInt64.toNat_inj, UInt64.toNat_mod, toNat_capacity_of_size hsize hk,
    ← index_eq_mod hsize hk]
  rfl

/-- Going on by some positions goes round the cells by as many. -/
theorem index_add (hsize : r.mask.toNat + 1 = 2 ^ k) (hk : k ≤ 63) (position : UInt64) (i : Nat) :
    r.index (position + UInt64.ofNat i) = (r.index position + i) % 2 ^ k := by
  have hnext := index_ofNat hsize hk (position.toNat + i)
  rw [UInt64.ofNat_add, UInt64.ofNat_toNat] at hnext
  rw [hnext, index_eq_mod hsize hk, Nat.mod_add_mod]

/-- No request changes the capacity. -/
theorem capacity_answer (r : Ring α) (request : QueueRequest α) :
    (r.answer request).2.capacity = r.capacity := by
  cases request with
  | push x => exact capacity_push r x
  | pop => exact capacity_pop r

/-- A sequence of requests does not change the capacity. -/
theorem capacity_serve (r : Ring α) (requests : List (QueueRequest α)) :
    (serve answer r requests).2.capacity = r.capacity := by
  induction requests generalizing r with
  | nil => rfl
  | cons request requests ih =>
    rw [serve, ih, capacity_answer]

/-- A new ring has the capacity that was rounded up. -/
theorem capacity_empty (n : UInt64) : (empty n : Ring α).capacity = Capacity.roundUp n :=
  UInt64.sub_add_cancel _ _

/-- For a request up to `2 ^ 63` the doubling of a capacity ends, and it ends with the one to which
the request is rounded up, the least power of two that is no smaller than the request and than 2; no
doubling on the way loses the leading bit. The ring keeps that capacity. Its mask reduces every
64-bit position modulo the capacity, and the positions that follow a position, wrapping around where
they have to, have the cells that follow its cell in turn. -/
theorem roundUp_goes_round {n : UInt64} (hn : n.toNat ≤ 2 ^ 63)
    (requests : List (QueueRequest α)) :
    let ring := (serve answer (empty n) requests).2
    (∀ c, Capacity.Settles n c ↔ c = Capacity.roundUp n) ∧
      (∀ c doubled, Capacity.Reaches n c → Capacity.Doubles n c doubled →
        doubled.toNat = 2 * c.toNat) ∧
      IsLeast {m | (∃ k, m = 2 ^ k) ∧ max n.toNat 2 ≤ m} (Capacity.roundUp n).toNat ∧
      ring.capacity = Capacity.roundUp n ∧
      ∀ position : UInt64, position &&& ring.mask = position % ring.capacity ∧
        ring.index position = position.toNat % ring.capacity.toNat ∧
        ∀ i, ring.index (position + UInt64.ofNat i) =
          (ring.index position + i) % ring.capacity.toNat := by
  intro ring
  obtain ⟨k, hempty, -⟩ := holds_empty (α := α) n
  obtain ⟨first, items, h, -, -⟩ := hempty.serve_eq requests
  have hcapacity : ring.capacity = Capacity.roundUp n :=
    (capacity_serve _ requests).trans (capacity_empty n)
  refine ⟨fun c => Capacity.settles_iff.trans (and_iff_right hn),
    fun c doubled hreach hstep => hreach.toNat_of_doubles hn hstep, Capacity.isLeast_roundUp hn,
    hcapacity, fun position => ⟨and_mask h.size_eq h.le_bits position, ?_, fun i => ?_⟩⟩
  · rw [h.toNat_capacity]
    exact index_eq_mod h.size_eq h.le_bits position
  · rw [h.toNat_capacity]
    exact index_add h.size_eq h.le_bits position i

/-- Five cells are asked for and eight are made, and behind the last position of all comes the
first. -/
theorem roundUp_goes_round_wrapping :
    let ring := (serve answer (empty 5) [.push 'a', .pop]).2
    (5 : UInt64).toNat ≤ 2 ^ 63 ∧ Capacity.Settles 5 8 ∧
      ring.index 18446744073709551615 = 7 ∧
      ring.index (18446744073709551615 + UInt64.ofNat 1) = 0 := by
  intro ring
  have hround : Capacity.roundUp 5 = 8 := by decide +kernel
  obtain ⟨hsettles, -, -, hcapacity, hcells⟩ :=
    roundUp_goes_round (n := 5) (by decide) [.push 'a', .pop]
  obtain ⟨-, hlast, hnext⟩ := hcells 18446744073709551615
  have hcount : ring.capacity.toNat = 8 := by
    rw [hcapacity, hround]
    rfl
  have hseven : ring.index 18446744073709551615 = 7 := by
    rw [hlast, hcount]
    rfl
  refine ⟨by decide, (hsettles 8).mpr hround.symm, hseven, ?_⟩
  rw [hnext 1, hseven, hcount]

end Ring

end DexFeed
