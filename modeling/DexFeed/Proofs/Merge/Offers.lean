import Mathlib.Data.List.Basic
import DexFeed.Proofs.Merge.Doing

/-!
# Free places

`Place.offers` lists the places that an instruction event could go to, last one first, and
`Place.absorb?` takes the first of them. Taking a place removes it from the offers of every event
of the same doing and changes the offers of no other. The place that the `i`-th of some instruction
events goes to is therefore known before anything is merged: `Place.target?` skips as many offers
as there are earlier events of the same doing.
-/

namespace DexFeed.Place

/-- The place after it has taken in an instruction event. -/
def taking (ix : Event) (p : Place) : Place :=
  ⟨p.event.merge ix, true⟩

/-- The positions of the places that are free for an instruction event, the last one first. -/
def offers (places : List Place) (ix : Event) : List Nat :=
  (places.findIdxs (·.accepts ix)).reverse

/-- The position of the place that the `i`-th of some instruction events goes to. -/
def target? (places : List Place) (ixs : List Event) (i : Nat) : Option Nat :=
  ixs[i]?.bind fun ix => (offers places ix)[(ixs.take i).countP (·.pairsWith ix)]?

/-- Matching positions of a list with a new head: the head's own, and the others one further on. -/
theorem findIdxs_cons_eq {α : Type} (test : α → Bool) (x : α) (xs : List α) :
    (x :: xs).findIdxs test = (if test x then [0] else []) ++ (xs.findIdxs test).map (· + 1) := by
  rw [List.findIdxs_cons, List.findIdxs_start (s := 0 + 1)]
  split <;> rfl

/-- The places are offered from the last one on, so the first place comes behind all others. -/
theorem offers_cons (p : Place) (places : List Place) (ix : Event) :
    offers (p :: places) ix =
      (offers places ix).map (· + 1) ++ if p.accepts ix then [0] else [] := by
  rw [offers, findIdxs_cons_eq, List.reverse_append, ← List.map_reverse]
  split <;> rfl

/-- A place accepts only what its event pairs with. -/
theorem pairsWith_of_accepts {p : Place} {ix : Event} (ha : p.accepts ix = true) :
    p.event.pairsWith ix = true := by
  rw [accepts, Bool.and_eq_true] at ha
  exact ha.2

/-- Events that one place is free for describe the same doing. -/
theorem pairsWith_of_common {p : Place} {a b : Event} (ha : p.accepts a = true)
    (hb : p.accepts b = true) : a.pairsWith b = true :=
  Event.pairsWith_trans (Event.pairsWith_comm _ _ ▸ pairsWith_of_accepts ha)
    (pairsWith_of_accepts hb)

/-- The places on offer are those that accept the instruction event. -/
theorem mem_offers {places : List Place} {ix : Event} {k : Nat} :
    k ∈ offers places ix ↔ ∃ p, places[k]? = some p ∧ p.accepts ix = true := by
  rw [offers, List.mem_reverse, List.mem_findIdxs_iff_exists_getElem_pos]
  constructor
  · rintro ⟨hk, ha⟩
    exact ⟨places[k], List.getElem?_eq_getElem hk, ha⟩
  · rintro ⟨p, hp, ha⟩
    obtain ⟨hk, rfl⟩ := List.getElem?_eq_some_iff.mp hp
    exact ⟨hk, ha⟩

/-- No place is offered twice. -/
theorem offers_nodup (places : List Place) (ix : Event) : (offers places ix).Nodup :=
  List.pairwise_reverse.mpr (List.nodup_findIdxs.imp Ne.symm)

/-- An event is absorbed by the first place that is offered to it. -/
theorem absorb?_eq (ix : Event) (places : List Place) :
    absorb? ix places =
      (offers places ix).head?.map fun k => places.modify k (taking ix) := by
  induction places with
  | nil => rfl
  | cons p places ih =>
    rw [absorb?, ih, offers_cons]
    cases offers places ix with
    | nil =>
      by_cases ha : p.accepts ix = true
      · simp [ha, taking]
      · simp [ha]
    | cons k ks => simp

/-- An event that is absorbed changes one place that accepts it, and no other. -/
theorem exists_place_of_absorb? {ix : Event} {places later : List Place}
    (h : absorb? ix places = some later) :
    ∃ before p after, places = before ++ p :: after ∧ p.accepts ix = true ∧
      later = before ++ p.taking ix :: after := by
  induction places generalizing later with
  | nil => contradiction
  | cons p places ih =>
    rw [absorb?] at h
    cases hmore : absorb? ix places with
    | some more =>
      rw [hmore, Option.some.injEq] at h
      obtain ⟨before, q, after, hplaces, haccepts, hlater⟩ := ih hmore
      exact ⟨p :: before, q, after, by rw [hplaces, List.cons_append], haccepts,
        by rw [← h, hlater, List.cons_append]⟩
    | none =>
      rw [hmore] at h
      by_cases ha : p.accepts ix = true
      · simp only [ha, if_true, Option.some.injEq] at h
        exact ⟨[], p, places, rfl, ha, h.symm⟩
      · simp only [ha, Bool.false_eq_true, if_false, reduceCtorEq] at h

/-- Events of the same doing are offered the same places. -/
theorem offers_congr {a b : Event} (hab : a.pairsWith b = true) (places : List Place) :
    offers places a = offers places b := by
  have haccept : (fun p : Place => p.accepts a) = fun p => p.accepts b := by
    funext p
    rw [accepts, accepts, Event.pairsWith_congr hab]
  rw [offers, offers, haccept]

/-- A position whose element fails the test after a change leaves the matching positions. -/
theorem findIdxs_modify {α : Type} {test : α → Bool} {f : α → α} (hf : ∀ x, test (f x) = false)
    (xs : List α) (k : Nat) :
    (xs.modify k f).findIdxs test = (xs.findIdxs test).filter (· ≠ k) := by
  induction xs generalizing k with
  | nil => simp
  | cons x xs ih =>
    rw [findIdxs_cons_eq test x, List.filter_append, List.filter_map]
    cases k with
    | zero =>
      have htail : (fun j => decide (j ≠ 0)) ∘ (· + 1) = fun _ : Nat => true := by
        funext j
        simp
      rw [List.modify_zero_cons, findIdxs_cons_eq, hf, if_neg Bool.false_ne_true, htail,
        List.filter_true]
      split <;> rfl
    | succ k =>
      have htail : (fun j => decide (j ≠ k + 1)) ∘ (· + 1) = fun j => decide (j ≠ k) := by
        funext j
        simp
      rw [List.modify_succ_cons, findIdxs_cons_eq, ih, htail]
      split <;> rfl

/-- A place that has taken an event is on offer to no other, and nothing else changes. -/
theorem offers_modify (places : List Place) (k : Nat) (ix other : Event) :
    offers (places.modify k (taking ix)) other = (offers places other).filter (· ≠ k) := by
  rw [offers, offers, findIdxs_modify (by simp [accepts, taking]), List.filter_reverse]

variable {places : List Place} {ix other : Event} {k : Nat} {ks : List Nat}

/-- A taken place is no longer offered to the events of the same doing. -/
theorem offers_taking (ho : offers places ix = k :: ks) (hp : ix.pairsWith other = true) :
    offers (places.modify k (taking ix)) other = ks := by
  have hn := offers_nodup places ix
  rw [ho, List.nodup_cons] at hn
  rw [offers_modify, ← offers_congr hp, ho, List.filter_cons_of_neg (by simp),
    List.filter_eq_self.mpr]
  intro j hj
  simpa using fun he : j = k => hn.1 (he ▸ hj)

/-- Taking a place changes nothing for the events of other doings. -/
theorem offers_taking_of_not_pairs (ho : offers places ix = k :: ks)
    (hp : ix.pairsWith other = false) :
    offers (places.modify k (taking ix)) other = offers places other := by
  obtain ⟨p, hk, ha⟩ := mem_offers.mp (ho ▸ List.mem_cons_self : k ∈ offers places ix)
  rw [offers_modify, List.filter_eq_self]
  intro j hj
  have hne : j ≠ k := by
    rintro rfl
    obtain ⟨q, hq, hb⟩ := mem_offers.mp hj
    rw [hk, Option.some.injEq] at hq
    rw [← hq] at hb
    have hpair := pairsWith_of_common ha hb
    rw [hp] at hpair
    contradiction
  simpa using hne

/-! ## The place of each event -/

variable {ixs : List Event} {i j : Nat}

/-- The first instruction event gets the first place on offer. -/
theorem target?_zero : target? places (ix :: ixs) 0 = (offers places ix).head? := by
  simp [target?, List.head?_eq_getElem?]

/-- Behind an event that took a place, the others go where they would go without that event and
with the place taken. -/
theorem target?_succ_of_offer (ho : offers places ix = k :: ks) :
    target? places (ix :: ixs) (i + 1) = target? (places.modify k (taking ix)) ixs i := by
  unfold target?
  rw [List.getElem?_cons_succ, List.take_succ_cons]
  refine Option.bind_congr fun other _ => ?_
  cases hp : ix.pairsWith other with
  | true =>
    rw [List.countP_cons, if_pos hp, ← offers_congr hp, ho, List.getElem?_cons_succ,
      offers_taking ho hp]
  | false =>
    rw [List.countP_cons, if_neg (by simp [hp]), Nat.add_zero, offers_taking_of_not_pairs ho hp]

/-- Behind an event without a place, the others go where they would go without that event. -/
theorem target?_succ_of_no_offer (ho : offers places ix = []) :
    target? places (ix :: ixs) (i + 1) = target? places ixs i := by
  unfold target?
  rw [List.getElem?_cons_succ, List.take_succ_cons]
  refine Option.bind_congr fun other _ => ?_
  cases hp : ix.pairsWith other with
  | true =>
    rw [← offers_congr hp, ho, List.getElem?_nil, List.getElem?_nil]
  | false => rw [List.countP_cons, if_neg (by simp [hp]), Nat.add_zero]

/-- An instruction event goes to a place that accepts it. -/
theorem accepts_of_target? (ht : target? places ixs i = some k) :
    ∃ ix p, ixs[i]? = some ix ∧ places[k]? = some p ∧ p.accepts ix = true := by
  obtain ⟨ix, hix, hk⟩ := Option.bind_eq_some_iff.mp ht
  obtain ⟨p, hp, ha⟩ := mem_offers.mp (List.mem_of_getElem? hk)
  exact ⟨ix, p, hix, hp, ha⟩

end DexFeed.Place
