import Mathlib.Data.List.GetD
import Mathlib.Data.List.Rotate
import DexFeed.Latency.History

/-!
# A window sums up the latest samples

A window that has room appends, and a full one writes over the place at the total modulo its
capacity. Read from that place on and around, the samples are therefore always the latest ones in
the order of their arrival: `Keeps` says that they are a rotation by the total. Recording keeps this
through any number of laps and a reset starts over. Sorting forgets the rotation, so a summary
depends on the latest samples alone, and its figures are the extremes and the order statistics of
these. Counts are natural numbers here and never wrap.
-/

namespace DexFeed

namespace SampleWindow

variable {w : SampleWindow} {samples : List Nat}

/-! ## Ends of a list -/

/-- The last elements are as many as asked for, or all. -/
theorem length_rtake {α : Type} (xs : List α) (n : Nat) :
    (xs.rtake n).length = min xs.length n := by
  rw [List.rtake, List.length_drop]
  omega

/-- Who asks for at least as many elements as there are gets the list. -/
theorem rtake_of_length_le {α : Type} {xs : List α} {n : Nat} (h : xs.length ≤ n) :
    xs.rtake n = xs := by
  rw [List.rtake, Nat.sub_eq_zero_of_le h, List.drop_zero]

/-- A longer list moves a full end on by one. -/
theorem rtake_concat_of_le {α : Type} {xs : List α} {n : Nat} (hn : 0 < n) (h : n ≤ xs.length)
    (x : α) : (xs ++ [x]).rtake n = (xs.rtake n).tail ++ [x] := by
  obtain ⟨m, rfl⟩ := Nat.exists_eq_add_one.mpr hn
  have hmore : xs.length - (m + 1) + 1 = xs.length - m := by omega
  rw [List.rtake_concat_succ, List.rtake, List.rtake, List.tail_drop, hmore]

/-- Writing at the place of a rotation replaces the head of the rotated list. -/
theorem rotate_set {α : Type} {xs : List α} (hne : xs ≠ []) (n : Nat) (x : α) :
    (xs.set (n % xs.length) x).rotate n = (xs.rotate n).set 0 x := by
  have hplace : n % xs.length < xs.length := Nat.mod_lt n (List.length_pos_iff.mpr hne)
  have hrest : 0 < (xs.drop (n % xs.length)).length := by
    rw [List.length_drop]
    omega
  rw [List.rotate_eq_drop_append_take_mod, List.rotate_eq_drop_append_take_mod, List.length_set,
    List.take_set_of_le (Nat.le_refl _), List.drop_set, if_neg (Nat.lt_irrefl _), Nat.sub_self,
    List.set_append, if_pos hrest]

/-- Writing at the place of a rotation and going on by one drops the head and appends. -/
theorem rotate_set_succ {α : Type} {xs : List α} (hne : xs ≠ []) (n : Nat) (x : α) :
    (xs.set (n % xs.length) x).rotate (n + 1) = (xs.rotate n).tail ++ [x] := by
  rw [← List.rotate_rotate, rotate_set hne]
  cases h : xs.rotate n with
  | nil => exact absurd (List.rotate_eq_nil_iff.mp h) hne
  | cons y ys => rw [List.set_cons_zero, List.rotate_cons_succ, List.rotate_zero, List.tail_cons]

/-! ## What a window keeps -/

/-- A window keeps the latest of some samples, the oldest of them at the place of the next one. -/
structure Keeps (w : SampleWindow) (samples : List Nat) : Prop where
  /-- There is room for a sample. -/
  capacity_pos : 0 < w.capacity
  /-- All samples are counted. -/
  total_eq : w.total = samples.length
  /-- Read around from the total on, the places hold the latest samples in order. -/
  rotate_eq : w.samples.toList.rotate w.total = samples.rtake w.capacity

/-- A new window keeps no samples. -/
theorem keeps_ofCapacity (n : Nat) : (ofCapacity n).Keeps [] where
  capacity_pos := Nat.lt_of_lt_of_le Nat.zero_lt_one (Nat.le_max_right n 1)
  total_eq := rfl
  rotate_eq := (List.rtake_nil _).symm

/-- A window that was reset keeps no samples. -/
theorem Keeps.reset (h : w.Keeps samples) : w.reset.Keeps [] where
  capacity_pos := h.capacity_pos
  total_eq := rfl
  rotate_eq := (List.rtake_nil _).symm

/-- A window counts the samples it was given up to its capacity. -/
theorem Keeps.count_eq (h : w.Keeps samples) : w.count = min samples.length w.capacity := by
  rw [← length_rtake, ← h.rotate_eq, List.length_rotate]
  rfl

/-- While there is room the samples stand in the order of their arrival. -/
theorem Keeps.toList_of_room (h : w.Keeps samples) (hroom : w.samples.size < w.capacity) :
    samples.length < w.capacity ∧ w.samples.toList = samples := by
  have hcount : w.samples.size = min samples.length w.capacity := h.count_eq
  have hlt : samples.length < w.capacity := by omega
  have hlength : w.samples.toList.length = w.total := by
    rw [Array.length_toList, h.total_eq]
    omega
  have hrotate := h.rotate_eq
  rw [← hlength, List.rotate_length, rtake_of_length_le (Nat.le_of_lt hlt)] at hrotate
  exact ⟨hlt, hrotate⟩

/-- While there is room, a sample goes behind the others. -/
theorem Keeps.record_of_room (h : w.Keeps samples) (hroom : w.samples.size < w.capacity)
    (sample : Nat) : (w.record sample).Keeps (samples ++ [sample]) := by
  obtain ⟨hlt, hsamples⟩ := h.toList_of_room hroom
  have hlength : (samples ++ [sample]).length = samples.length + 1 := List.length_append
  have hrecord : w.record sample =
      { w with samples := w.samples.push sample, total := w.total + 1 } := if_pos hroom
  rw [hrecord]
  refine ⟨h.capacity_pos, by rw [h.total_eq, hlength], ?_⟩
  have hall : (samples ++ [sample]).rtake w.capacity = samples ++ [sample] :=
    rtake_of_length_le (hlength.trans_le hlt)
  rw [hall, Array.toList_push, hsamples, h.total_eq, ← hlength, List.rotate_length]

/-- In a full window a sample takes the place of the oldest, so the order of the kept samples is
turned by one place. -/
theorem Keeps.record_of_full (h : w.Keeps samples) (hfull : ¬w.samples.size < w.capacity)
    (sample : Nat) : (w.record sample).Keeps (samples ++ [sample]) := by
  have hcount : w.samples.size = min samples.length w.capacity := h.count_eq
  have hlength : w.samples.toList.length = w.capacity := by
    rw [Array.length_toList]
    omega
  have hne : w.samples.toList ≠ [] :=
    List.length_pos_iff.mp (hlength.symm ▸ h.capacity_pos)
  have hrecord : w.record sample =
      { w with
        samples := w.samples.setIfInBounds (w.total % w.capacity) sample
        total := w.total + 1 } := if_neg hfull
  rw [hrecord]
  refine ⟨h.capacity_pos, by rw [h.total_eq, List.length_append, List.length_singleton], ?_⟩
  -- The place that is written over is the oldest sample's, with which the rotation begins.
  rw [Array.toList_setIfInBounds, ← hlength, rotate_set_succ hne, h.rotate_eq, hlength,
    rtake_concat_of_le h.capacity_pos (by omega)]

/-- A recorded sample is the latest. -/
theorem Keeps.record (h : w.Keeps samples) (sample : Nat) :
    (w.record sample).Keeps (samples ++ [sample]) := by
  by_cases hroom : w.samples.size < w.capacity
  · exact h.record_of_room hroom sample
  · exact h.record_of_full hroom sample

/-! ## What a history leaves -/

/-- A recorded sample is the latest. -/
theorem recorded_concat_record (requests : List SampleRequest) (sample : Nat) :
    SampleRequest.recorded (requests ++ [.record sample]) =
      SampleRequest.recorded requests ++ [sample] := by
  rw [SampleRequest.recorded, List.rtakeWhile_concat_pos _ _ _ (by simp), List.filterMap_append]
  rfl

/-- Behind a reset nothing is recorded. -/
theorem recorded_concat_reset (requests : List SampleRequest) :
    SampleRequest.recorded (requests ++ [.reset]) = [] := by
  rw [SampleRequest.recorded, List.rtakeWhile_concat_neg _ _ _ (by simp), List.filterMap_nil]

/-- No request changes the capacity. -/
theorem capacity_perform (w : SampleWindow) (request : SampleRequest) :
    (w.perform request).capacity = w.capacity := by
  cases request with
  | record sample =>
    rw [perform, record]
    split <;> rfl
  | reset => rfl

/-- The last request is performed on what the others left. -/
theorem after_concat (capacity : Nat) (requests : List SampleRequest) (request : SampleRequest) :
    after capacity (requests ++ [request]) = (after capacity requests).perform request := by
  rw [after, List.foldl_append]
  rfl

/-- After any history a window keeps the latest of the samples recorded since the last reset. -/
theorem keeps_after (capacity : Nat) (requests : List SampleRequest) :
    (after capacity requests).capacity = max capacity 1 ∧
      (after capacity requests).Keeps (SampleRequest.recorded requests) := by
  induction requests using List.reverseRecOn with
  | nil => exact ⟨rfl, keeps_ofCapacity capacity⟩
  | append_singleton requests request ih =>
    rw [after_concat]
    refine ⟨(capacity_perform _ request).trans ih.1, ?_⟩
    cases request with
    | record sample =>
      rw [recorded_concat_record]
      exact ih.2.record sample
    | reset =>
      rw [recorded_concat_reset]
      exact ih.2.reset

/-! ## Order statistics -/

/-- The sorted samples ascend. -/
theorem pairwise_sorted (w : SampleWindow) : w.sorted.Pairwise (· ≤ ·) := by
  have htrans : ∀ a b c : Nat, decide (a ≤ b) → decide (b ≤ c) → decide (a ≤ c) := by
    simp only [decide_eq_true_eq]
    exact fun _ _ _ => Nat.le_trans
  have htotal : ∀ a b : Nat, decide (a ≤ b) || decide (b ≤ a) := by
    simp only [Bool.or_eq_true, decide_eq_true_eq]
    exact Nat.le_total
  exact (List.pairwise_mergeSort htrans htotal w.samples.toList).imp of_decide_eq_true

/-- Sorting forgets the order of arrival. -/
theorem sorted_congr {w' : SampleWindow} (h : w.samples.toList.Perm w'.samples.toList) :
    w.sorted = w'.sorted := by
  have hperm : w.sorted.Perm w'.sorted :=
    (List.mergeSort_perm _ _).trans (h.trans (List.mergeSort_perm _ _).symm)
  exact hperm.eq_of_pairwise (fun a b _ _ => Nat.le_antisymm) w.pairwise_sorted w'.pairwise_sorted

/-- A summary depends on the samples in any order and on the total. -/
theorem summary_congr {w' : SampleWindow} (h : w.samples.toList.Perm w'.samples.toList)
    (htotal : w.total = w'.total) : w.summary = w'.summary := by
  rw [summary, summary, sorted_congr h, htotal]

/-- A proportion below one has its rank among the samples. -/
theorem rank_lt {count per of : Nat} (hcount : 0 < count) (h : per < of) :
    rank count per of < count :=
  Nat.div_lt_of_lt_mul (Nat.mul_comm of count ▸ Nat.mul_lt_mul_of_pos_left h hcount)

/-- In an ascending list a later rank has no smaller sample. -/
theorem getD_le_getD {order : List Nat} (h : order.Pairwise (· ≤ ·)) {i j : Nat} (hij : i ≤ j)
    (hj : j < order.length) : order.getD i 0 ≤ order.getD j 0 := by
  have hi : i < order.length := Nat.lt_of_le_of_lt hij hj
  rw [List.getD_eq_getElem _ _ hi, List.getD_eq_getElem _ _ hj]
  rcases Nat.eq_or_lt_of_le hij with rfl | hlt
  · exact Nat.le_refl _
  · exact List.pairwise_iff_getElem.mp h i j hi hj hlt

/-- The least figure is the first of the sorted samples. -/
theorem summary_least (w : SampleWindow) : w.summary.least = w.sorted.getD 0 0 := by
  rw [summary, List.headD_eq_head?_getD, List.head?_eq_getElem?, List.getD_eq_getElem?_getD]

/-- The greatest figure is the last of the sorted samples. -/
theorem summary_greatest (w : SampleWindow) :
    w.summary.greatest = w.sorted.getD (w.sorted.length - 1) 0 := by
  rw [summary, List.getLastD_eq_getLast?, List.getLast?_eq_getElem?, List.getD_eq_getElem?_getD]

/-- The summary counts what the window counts. -/
theorem summary_count (w : SampleWindow) : w.summary.count = w.count :=
  w.length_sorted

/-- Without samples there is nothing to sum up. -/
theorem summary_of_nil (h : w.samples.toList = []) (htotal : w.total = 0) :
    w.summary = Summary.empty := by
  have hsorted : w.sorted = [] := by
    rw [sorted, h]
    exact List.mergeSort_nil
  rw [summary, hsorted, htotal]
  rfl

/-- The figures of a summary ascend. -/
theorem summary_ascending (w : SampleWindow) :
    w.summary.least ≤ w.summary.p50 ∧ w.summary.p50 ≤ w.summary.p95 ∧
      w.summary.p95 ≤ w.summary.p99 ∧ w.summary.p99 ≤ w.summary.p999 ∧
      w.summary.p999 ≤ w.summary.greatest := by
  rw [summary_least, summary_greatest]
  by_cases hnil : w.sorted = []
  · simp [summary, hnil]
  · have hpos := List.length_pos_iff.mpr hnil
    have hlt := rank_lt hpos (by decide : 999 < 1000)
    have hle := fun {i j : Nat} (hij : i ≤ j) hj => getD_le_getD w.pairwise_sorted hij hj
    have hmid : rank w.sorted.length 50 100 ≤ rank w.sorted.length 95 100 ∧
        rank w.sorted.length 95 100 ≤ rank w.sorted.length 99 100 ∧
        rank w.sorted.length 99 100 ≤ rank w.sorted.length 999 1000 := by
      simp only [rank]
      omega
    exact ⟨hle (Nat.zero_le _) (by omega), hle hmid.1 (by omega), hle hmid.2.1 (by omega),
      hle hmid.2.2 hlt, hle (Nat.le_sub_one_of_lt hlt) (Nat.sub_one_lt_of_lt hpos)⟩

/-- What stands at a rank of the sorted samples has that rank among the samples. -/
theorem isRanked_of_perm (h : w.sorted.Perm samples) {r : Nat} (hr : r < w.sorted.length) :
    IsRanked samples r (w.sorted.getD r 0) :=
  ⟨w.sorted, h, w.pairwise_sorted, hr, (List.getD_eq_getElem _ _ hr).symm⟩

/-- The samples are what stands at the ranks. -/
theorem mem_iff_of_perm (h : w.sorted.Perm samples) (x : Nat) :
    x ∈ samples ↔ ∃ r < w.sorted.length, w.sorted.getD r 0 = x := by
  rw [← h.mem_iff, List.mem_iff_getElem]
  constructor
  · rintro ⟨r, hr, rfl⟩
    exact ⟨r, hr, List.getD_eq_getElem _ _ hr⟩
  · rintro ⟨r, hr, rfl⟩
    exact ⟨r, hr, (List.getD_eq_getElem _ _ hr).symm⟩

/-- The summary of a window describes samples whose ascending order the window finds. -/
theorem describes_of_perm (h : w.sorted.Perm samples) (hne : samples ≠ []) :
    w.summary.Describes samples := by
  have hpos : 0 < w.sorted.length := h.length_eq ▸ List.length_pos_iff.mpr hne
  have hlast : w.sorted.length - 1 < w.sorted.length := Nat.sub_one_lt_of_lt hpos
  have hranked := fun {per of : Nat} (hlt : per < of) => isRanked_of_perm h (rank_lt hpos hlt)
  refine ⟨h.length_eq, ⟨?_, fun x hx => ?_⟩, ⟨?_, fun x hx => ?_⟩, hranked (by decide),
    hranked (by decide), hranked (by decide), hranked (by decide)⟩
  · exact (mem_iff_of_perm h _).mpr ⟨0, hpos, w.summary_least.symm⟩
  · obtain ⟨r, hr, rfl⟩ := (mem_iff_of_perm h x).mp hx
    exact w.summary_least ▸ getD_le_getD w.pairwise_sorted (Nat.zero_le r) hr
  · exact (mem_iff_of_perm h _).mpr ⟨w.sorted.length - 1, hlast, w.summary_greatest.symm⟩
  · obtain ⟨r, hr, rfl⟩ := (mem_iff_of_perm h x).mp hx
    exact w.summary_greatest ▸ getD_le_getD w.pairwise_sorted (Nat.le_sub_one_of_lt hr) hlast

/-- Whatever was recorded and reset, a summary is that of a window which holds the latest samples
since the last reset in the order of their arrival: as many as there are or as there is room for. It
counts them and all samples since then, and it gives their minimum, their maximum and the elements
of their ascending order at four ranks, each of which is below the count. Its figures ascend, and
without samples all of them are zero. -/
theorem summary_after (capacity : Nat) (requests : List SampleRequest) :
    let recorded := SampleRequest.recorded requests
    let kept := recorded.rtake (max capacity 1)
    let s := (after capacity requests).summary
    s = summary ⟨max capacity 1, kept.toArray, recorded.length⟩ ∧
      s.count = min recorded.length (max capacity 1) ∧ s.total = recorded.length ∧
      (recorded ≠ [] → s.Describes kept) ∧ (recorded = [] → s = Summary.empty) ∧
      s.least ≤ s.p50 ∧ s.p50 ≤ s.p95 ∧ s.p95 ≤ s.p99 ∧ s.p99 ≤ s.p999 ∧
      s.p999 ≤ s.greatest := by
  intro recorded kept s
  obtain ⟨hcapacity, h⟩ := keeps_after capacity requests
  have hperm : (after capacity requests).samples.toList.Perm kept := by
    rw [show kept = _ from hcapacity ▸ h.rotate_eq.symm]
    exact (List.rotate_perm _ _).symm
  have hcount : s.count = min recorded.length (max capacity 1) := by
    rw [← hcapacity, ← h.count_eq]
    exact summary_count _
  refine ⟨summary_congr hperm h.total_eq, hcount, h.total_eq, fun hne => ?_, fun hnil => ?_,
    summary_ascending _⟩
  · have hkept : kept ≠ [] := by
      rw [Ne, ← List.length_eq_zero_iff, length_rtake]
      have hpos := List.length_pos_iff.mpr hne
      omega
    exact describes_of_perm ((List.mergeSort_perm _ _).trans hperm) hkept
  · have hkept : kept = [] := by
      rw [show kept = recorded.rtake _ from rfl, hnil, List.rtake_nil]
    refine summary_of_nil (hkept ▸ hperm).eq_nil ?_
    rw [h.total_eq]
    exact congrArg List.length hnil

/-- A window of three has lost the sample before the reset and the first of the four behind it. -/
theorem summary_after_lap :
    let s := (after 3 [.record 7, .reset, .record 40, .record 10, .record 30, .record 20]).summary
    s.Describes [10, 30, 20] ∧ s.count = 3 ∧ s.total = 4 ∧ s.least = 10 ∧ s.p50 = 20 ∧
      s.p999 = 30 ∧ s.greatest = 30 := by
  intro s
  obtain ⟨hsame, hcount, htotal, hdescribes, -⟩ := summary_after 3
    [.record 7, .reset, .record 40, .record 10, .record 30, .record 20]
  have hsorted : (SampleWindow.mk 3 #[10, 30, 20] 4).sorted = [10, 20, 30] := by
    simp [sorted, List.mergeSort]
  refine ⟨hdescribes (by decide), hcount, htotal, ?_⟩
  rw [show s = (SampleWindow.mk 3 #[10, 30, 20] 4).summary from hsame, summary, hsorted]
  decide

end SampleWindow

end DexFeed
