import Mathlib.Algebra.BigOperators.Group.Finset.Basic
import Mathlib.Algebra.BigOperators.Group.Finset.Piecewise
import DexFeed.Proofs.Merge.Offers

/-!
# Which events are merged

The outcome of `reconcile` is determined by the keys of the events alone. The instruction event
with `j` earlier ones of the same doing goes to the log event with `j` later ones of that doing, if
there is one; every other log event stays as it is, and the instruction events without a log follow
in their order. In each doing as many events are merged as the scarcer side has.
-/

namespace DexFeed

namespace Place

variable {places : List Place} {ix : Event} {ixs : List Event} {i j k : Nat} {ks : List Nat}

/-- An instruction event goes to the first place on offer before the rest are looked at. -/
theorem absorbAll_of_offer (ho : offers places ix = k :: ks) :
    absorbAll places (ix :: ixs) = absorbAll (places.modify k (taking ix)) ixs := by
  rw [absorbAll, absorb?_eq, ho]
  rfl

/-- An instruction event without a place on offer is left over. -/
theorem absorbAll_of_no_offer (ho : offers places ix = []) :
    absorbAll places (ix :: ixs) =
      ((absorbAll places ixs).1, ix :: (absorbAll places ixs).2) := by
  rw [absorbAll, absorb?_eq, ho]
  rfl

/-- No place is added or lost. -/
theorem length_absorbAll (places : List Place) (ixs : List Event) :
    (absorbAll places ixs).1.length = places.length := by
  induction ixs generalizing places with
  | nil => rfl
  | cons ix ixs ih =>
    cases ho : offers places ix with
    | nil => rw [absorbAll_of_no_offer ho, ih]
    | cons k ks => rw [absorbAll_of_offer ho, ih, List.length_modify]

/-- A taken place is nobody's target. -/
theorem target?_ne_of_taking (places : List Place) (k : Nat) (ix : Event) (ixs : List Event)
    (i : Nat) : target? (places.modify k (taking ix)) ixs i ≠ some k := by
  intro ht
  obtain ⟨other, p, -, hp, ha⟩ := accepts_of_target? ht
  rw [List.getElem?_modify_eq, Option.map_eq_map, Option.map_eq_some_iff] at hp
  obtain ⟨q, -, rfl⟩ := hp
  simp [accepts, taking] at ha

/-- A place that is nobody's target stays as it is. -/
theorem absorbAll_of_no_target (h : ∀ i, target? places ixs i ≠ some k) :
    (absorbAll places ixs).1[k]? = places[k]? := by
  induction ixs generalizing places with
  | nil => rfl
  | cons ix ixs ih =>
    cases ho : offers places ix with
    | nil =>
      rw [absorbAll_of_no_offer ho]
      exact ih fun i => target?_succ_of_no_offer ho ▸ h (i + 1)
    | cons k₀ ks =>
      have hne : k₀ ≠ k := by
        have hfirst := h 0
        rw [target?_zero, ho, List.head?_cons] at hfirst
        exact fun he => hfirst (by rw [he])
      rw [absorbAll_of_offer ho, ih fun i => target?_succ_of_offer ho ▸ h (i + 1),
        List.getElem?_modify_ne _ _ hne]

/-- The target of an event takes it in and nothing after it. -/
theorem absorbAll_of_target {p : Place} (ht : target? places ixs i = some k)
    (hix : ixs[i]? = some ix) (hp : places[k]? = some p) :
    (absorbAll places ixs).1[k]? = some (p.taking ix) := by
  induction ixs generalizing places i with
  | nil => simp at hix
  | cons first ixs ih =>
    cases ho : offers places first with
    | nil =>
      rw [absorbAll_of_no_offer ho]
      cases i with
      | zero => simp [target?_zero, ho] at ht
      | succ i => exact ih (target?_succ_of_no_offer ho ▸ ht) hix hp
    | cons k₀ ks =>
      rw [absorbAll_of_offer ho]
      cases i with
      | zero =>
        rw [target?_zero, ho, List.head?_cons, Option.some.injEq] at ht
        rw [List.getElem?_cons_zero, Option.some.injEq] at hix
        subst ht hix
        rw [absorbAll_of_no_target (target?_ne_of_taking places k₀ first ixs),
          List.getElem?_modify_eq, hp]
        rfl
      | succ i =>
        rw [target?_succ_of_offer ho] at ht
        have hne : k₀ ≠ k := by
          rintro rfl
          exact target?_ne_of_taking places k₀ first ixs i ht
        exact ih ht hix (by rw [List.getElem?_modify_ne _ _ hne, hp])

/-- The events without a target are left over, in their order. -/
theorem absorbAll_snd (places : List Place) (ixs : List Event) :
    (absorbAll places ixs).2 =
      (ixs.zipIdx.filter fun x => (target? places ixs x.2).isNone).map Prod.fst := by
  induction ixs generalizing places with
  | nil => rfl
  | cons ix ixs ih =>
    rw [List.zipIdx_cons, List.zipIdx_succ]
    cases ho : offers places ix with
    | nil =>
      rw [absorbAll_of_no_offer ho, List.filter_cons_of_pos (by simp [target?_zero, ho]),
        List.filter_map, List.map_cons, List.map_map, ih]
      simp only [Function.comp_def, target?_succ_of_no_offer ho]
    | cons k ks =>
      rw [absorbAll_of_offer ho, List.filter_cons_of_neg (by simp [target?_zero, ho]),
        List.filter_map, List.map_map, ih]
      simp only [Function.comp_def, target?_succ_of_offer ho]

/-- Two events of the same target would share its doing, and the later of them skips the place
that the earlier one is offered. -/
theorem target?_ne_of_lt (hij : i < j) (hi : target? places ixs i = some k) :
    target? places ixs j ≠ some k := by
  intro hj
  obtain ⟨a, ha, hka⟩ := Option.bind_eq_some_iff.mp hi
  obtain ⟨b, hb, hkb⟩ := Option.bind_eq_some_iff.mp hj
  obtain ⟨p, hp, hpa⟩ := mem_offers.mp (List.mem_of_getElem? hka)
  obtain ⟨q, hq, hqb⟩ := mem_offers.mp (List.mem_of_getElem? hkb)
  rw [hp, Option.some.injEq] at hq
  subst hq
  have haa : a.pairsWith a = true := pairsWith_of_common hpa hpa
  have hab : a.pairsWith b = true := pairsWith_of_common hpa hqb
  have hcongr : (fun e : Event => e.pairsWith b) = fun e => e.pairsWith a :=
    funext fun e => (Event.pairsWith_congr hab e).symm
  rw [← offers_congr hab, hcongr] at hkb
  have hlength := (List.getElem?_eq_some_iff.mp hka).1
  have hsame := (List.getElem?_inj hlength (offers_nodup places a)).mp (hka.trans hkb.symm)
  have hnext : (ixs.take (i + 1)).countP (·.pairsWith a) =
      (ixs.take i).countP (·.pairsWith a) + 1 := by
    rw [List.take_add_one, ha, List.countP_append]
    simp [haa]
  have hle : (ixs.take (i + 1)).countP (·.pairsWith a) ≤
      (ixs.take j).countP (·.pairsWith a) :=
    (List.take_sublist_take_left hij).countP_le
  omega

/-- No place is taken by two instruction events. -/
theorem target?_inj (hi : target? places ixs i = some k) (hj : target? places ixs j = some k) :
    i = j := by
  rcases Nat.lt_trichotomy i j with h | h | h
  · exact (target?_ne_of_lt h hi hj).elim
  · exact h
  · exact (target?_ne_of_lt h hj hi).elim

end Place

/-! ## Log events and instruction events -/

/-- The positions of the log events that pair with an event, the last one first. -/
def partners (logs : List Event) (ix : Event) : List Nat :=
  (logs.findIdxs (·.pairsWith ix)).reverse

/-- The position of the log event that takes in the `i`-th instruction event: as many partners are
skipped as there are earlier instruction events of the same doing. -/
def partner? (logs ixs : List Event) (i : Nat) : Option Nat :=
  ixs[i]?.bind fun ix => (partners logs ix)[(ixs.take i).countP (·.pairsWith ix)]?

/-- The instruction events that find no log, in their order. -/
def unpaired (logs ixs : List Event) : List Event :=
  (ixs.zipIdx.filter fun x => (partner? logs ixs x.2).isNone).map Prod.fst

/-- How many instruction events find a log. -/
def pairCount (logs ixs : List Event) : Nat :=
  (List.range ixs.length).countP fun i => (partner? logs ixs i).isSome

/-- Whether an event describes a doing. -/
def Event.describes (d : Doing) (e : Event) : Bool :=
  decide (e.doing? = some d)

/-- The doings that some events describe. -/
def doings (events : List Event) : Finset Doing :=
  (events.filterMap Event.doing?).toFinset

variable {logs ixs : List Event} {ix : Event} {d : Doing}

/-- While all places are free, the target of an instruction event is its partner. -/
theorem target?_free (logs ixs : List Event) (i : Nat) :
    Place.target? (logs.map Place.free) ixs i = partner? logs ixs i := by
  simp only [Place.target?, Place.offers, List.findIdxs_map]
  rfl

/-- To pair with an event that reports a doing is to report that doing. -/
theorem pairsWith_eq_describes (hd : ix.doing? = some d) :
    (fun e : Event => e.pairsWith ix) = Event.describes d := by
  funext e
  rw [Event.pairsWith_comm, Event.pairsWith_of_doing? hd, Event.describes]

/-- One more instruction event is paired when its doing has more logs than earlier instructions. -/
theorem pairCount_append (logs ixs : List Event) (ix : Event) :
    pairCount logs (ixs ++ [ix]) =
      pairCount logs ixs +
        if ixs.countP (·.pairsWith ix) < logs.countP (·.pairsWith ix) then 1 else 0 := by
  have hlast : partner? logs (ixs ++ [ix]) ixs.length =
      (partners logs ix)[ixs.countP (·.pairsWith ix)]? := by
    simp [partner?]
  have hbefore : ∀ i ∈ List.range ixs.length,
      (partner? logs (ixs ++ [ix]) i).isSome = true ↔ (partner? logs ixs i).isSome = true := by
    intro i hi
    have hlt := List.mem_range.mp hi
    rw [partner?, partner?, List.getElem?_append_left hlt, List.take_append_of_le_length hlt.le]
  rw [pairCount, List.length_append, List.length_singleton, List.range_succ, List.countP_append,
    List.countP_congr hbefore, List.countP_singleton, hlast, pairCount]
  congr 1
  simp [partners]

/-- In each doing the scarcer side is exhausted. -/
theorem pairCount_eq_sum (logs ixs : List Event) {ds : Finset Doing}
    (hds : ∀ ix ∈ ixs, ∀ d, ix.doing? = some d → d ∈ ds) :
    pairCount logs ixs =
      ∑ d ∈ ds, min (ixs.countP (Event.describes d)) (logs.countP (Event.describes d)) := by
  induction ixs using List.reverseRecOn with
  | nil => simp [pairCount]
  | append_singleton ixs ix ih =>
    have hearlier := ih fun e he => hds e (List.mem_append_left _ he)
    rw [pairCount_append, hearlier]
    cases hd : ix.doing? with
    | none =>
      have hnobody : ∀ e : Event, e.pairsWith ix = false := by
        intro e
        rw [Bool.eq_false_iff, Ne, Event.pairsWith_iff]
        simp [hd]
      simp [hnobody, Event.describes, hd]
    | some d₀ =>
      have hmem : d₀ ∈ ds := hds ix (by simp) d₀ hd
      rw [pairsWith_eq_describes hd]
      -- One more instruction event raises the minimum of its own doing, if log events are left, and
      -- no other.
      have hstep : ∀ d ∈ ds,
          min ((ixs ++ [ix]).countP (Event.describes d)) (logs.countP (Event.describes d)) =
            min (ixs.countP (Event.describes d)) (logs.countP (Event.describes d)) +
              if d₀ = d then
                (if ixs.countP (Event.describes d) < logs.countP (Event.describes d) then 1
                  else 0)
              else 0 := by
        intro d _
        rw [List.countP_append, List.countP_singleton]
        by_cases he : d₀ = d
        · subst he
          simp only [Event.describes, hd, decide_true, if_true]
          split <;> omega
        · simp [Event.describes, hd, he]
      rw [Finset.sum_congr rfl hstep, Finset.sum_add_distrib, Finset.sum_ite_eq, if_pos hmem]

/-- Each instruction event is paired or left over. -/
theorem pairCount_add_length_unpaired (logs ixs : List Event) :
    pairCount logs ixs + (unpaired logs ixs).length = ixs.length := by
  have hpositions : ixs.zipIdx.map Prod.snd = List.range ixs.length := by
    rw [List.zipIdx_map_snd, List.range_eq_range']
  rw [unpaired, List.length_map, ← List.countP_eq_length_filter, pairCount, ← hpositions,
    List.countP_map]
  have hsplit := List.length_eq_countP_add_countP
    (fun x : Event × Nat => (partner? logs ixs x.2).isSome) (l := ixs.zipIdx)
  rw [List.length_zipIdx] at hsplit
  rw [hsplit]
  refine congrArg (_ + ·) (List.countP_congr fun x _ => ?_)
  simp

/-- Instruction events are merged into the log events of their doing from the last one on, in
their order. Log events keep their positions, no instruction event is lost or repeated, and each
doing has as many merges as the scarcer side has events. -/
theorem reconcile_pairs_from_last (ixs logs : List Event) :
    ∃ absorbed : List Event,
      reconcile ixs logs = absorbed ++ unpaired logs ixs ∧
      absorbed.length = logs.length ∧
      (∀ i k, partner? logs ixs i = some k →
        ∃ ix log, ixs[i]? = some ix ∧ logs[k]? = some log ∧ log.pairsWith ix = true ∧
          absorbed[k]? = some (log.merge ix)) ∧
      (∀ k, (∀ i, partner? logs ixs i ≠ some k) → absorbed[k]? = logs[k]?) ∧
      (∀ i j k, partner? logs ixs i = some k → partner? logs ixs j = some k → i = j) ∧
      pairCount logs ixs + (unpaired logs ixs).length = ixs.length ∧
      pairCount logs ixs =
        ∑ d ∈ doings (ixs ++ logs),
          min (ixs.countP (Event.describes d)) (logs.countP (Event.describes d)) := by
  refine ⟨(Place.absorbAll (logs.map Place.free) ixs).1.map Place.event, ?_, ?_, ?_, ?_, ?_,
    pairCount_add_length_unpaired logs ixs, ?_⟩
  · rw [reconcile, Place.absorbAll_snd]
    simp only [target?_free, unpaired]
  · rw [List.length_map, Place.length_absorbAll, List.length_map]
  · intro i k ht
    rw [← target?_free] at ht
    obtain ⟨ix, p, hix, hp, ha⟩ := Place.accepts_of_target? ht
    obtain ⟨log, hlog, rfl⟩ := Option.map_eq_some_iff.mp (List.getElem?_map .. ▸ hp)
    refine ⟨ix, log, hix, hlog, Place.pairsWith_of_accepts ha, ?_⟩
    rw [List.getElem?_map, Place.absorbAll_of_target ht hix hp]
    rfl
  · intro k h
    rw [List.getElem?_map, Place.absorbAll_of_no_target fun i => target?_free logs ixs i ▸ h i,
      List.getElem?_map, Option.map_map]
    exact congrFun Option.map_id _
  · intro i j k hi hj
    rw [← target?_free] at hi hj
    exact Place.target?_inj hi hj
  · apply pairCount_eq_sum
    intro ix hix d hd
    rw [doings, List.mem_toFinset, List.mem_filterMap]
    exact ⟨ix, List.mem_append_left _ hix, hd⟩

end DexFeed
