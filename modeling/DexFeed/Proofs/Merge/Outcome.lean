import DexFeed.Proofs.Merge.Reconcile

/-!
# What merging keeps

Merging makes no event out of nothing: what holds of all instruction events and all log events and
is kept by a merge of two holds of everything that comes out. Nor does it lose any: the events that
come out and those taken in make up what went in. An event is taken in only if it describes a doing
and only by a log event of its own, so neither side can be exceeded.
-/

namespace DexFeed

namespace Place

variable {P : Event → Prop} {ix : Event} {places later : List Place}

/-- What a merge of two events keeps, taking in one event keeps. -/
theorem forall_absorb? (hmerge : ∀ log ix, P log → P ix → P (log.merge ix)) (hix : P ix)
    (hplaces : ∀ p ∈ places, P p.event) (h : absorb? ix places = some later) :
    ∀ p ∈ later, P p.event := by
  obtain ⟨before, p, after, rfl, -, rfl⟩ := exists_place_of_absorb? h
  obtain ⟨hbefore, hrest⟩ := List.forall_mem_append.1 hplaces
  obtain ⟨hp, hafter⟩ := List.forall_mem_cons.1 hrest
  have hmerged : P (p.taking ix).event := hmerge p.event ix hp hix
  exact List.forall_mem_append.2 ⟨hbefore, List.forall_mem_cons.2 ⟨hmerged, hafter⟩⟩

/-- What merging keeps holds of all events in the places and of all that are left over. -/
theorem forall_absorbAll (hmerge : ∀ log ix, P log → P ix → P (log.merge ix)) {ixs : List Event}
    (hixs : ∀ ix ∈ ixs, P ix) (hplaces : ∀ p ∈ places, P p.event) :
    (∀ p ∈ (absorbAll places ixs).1, P p.event) ∧ ∀ e ∈ (absorbAll places ixs).2, P e := by
  induction ixs generalizing places with
  | nil => exact ⟨hplaces, List.forall_mem_nil _⟩
  | cons ix ixs ih =>
    obtain ⟨hix, hrest⟩ := List.forall_mem_cons.1 hixs
    rw [absorbAll]
    cases ha : absorb? ix places with
    | some later => exact ih hrest (forall_absorb? hmerge hix hplaces ha)
    | none =>
      obtain ⟨hfirst, hsecond⟩ := ih hrest hplaces
      exact ⟨hfirst, List.forall_mem_cons.2 ⟨hix, hsecond⟩⟩

/-- An event that is taken in takes one place. -/
theorem countP_taken_of_absorb? (h : absorb? ix places = some later) :
    later.countP Place.taken = places.countP Place.taken + 1 := by
  obtain ⟨before, p, after, rfl, haccepts, rfl⟩ := exists_place_of_absorb? h
  have hfree : p.taken = false := by
    rw [accepts, Bool.and_eq_true, Bool.not_eq_true'] at haccepts
    exact haccepts.1
  have htaken : (p.taking ix).taken = true := rfl
  rw [List.countP_append, List.countP_append, List.countP_cons, List.countP_cons, hfree, htaken]
  simp only [if_true, Bool.false_eq_true, if_false]
  omega

/-- Every event either takes a place or is left over. -/
theorem countP_taken_absorbAll (places : List Place) (ixs : List Event) :
    (absorbAll places ixs).1.countP Place.taken + (absorbAll places ixs).2.length =
      places.countP Place.taken + ixs.length := by
  induction ixs generalizing places with
  | nil => rfl
  | cons ix ixs ih =>
    rw [absorbAll, List.length_cons]
    cases ha : absorb? ix places with
    | some later =>
      have hrun := ih later
      have hstep := countP_taken_of_absorb? ha
      simp only
      omega
    | none =>
      have hrun := ih places
      simp only [List.length_cons]
      omega

end Place

variable {ixs logs : List Event}

/-- What holds of all events and is kept by merging two holds of all events that come out. -/
theorem forall_reconcile {P : Event → Prop} (hmerge : ∀ log ix, P log → P ix → P (log.merge ix))
    (hixs : ∀ ix ∈ ixs, P ix) (hlogs : ∀ log ∈ logs, P log) : ∀ e ∈ reconcile ixs logs, P e := by
  have hfree : ∀ p ∈ logs.map Place.free, P p.event := by
    intro p hp
    obtain ⟨log, hlog, rfl⟩ := List.mem_map.1 hp
    exact hlogs log hlog
  obtain ⟨hplaces, hrest⟩ := Place.forall_absorbAll hmerge hixs hfree
  intro e he
  cases List.mem_append.1 he with
  | inl h =>
    obtain ⟨p, hp, rfl⟩ := List.mem_map.1 h
    exact hplaces p hp
  | inr h => exact hrest e h

/-- The events left over by merging are those that find no log. -/
theorem absorbAll_free_snd (logs ixs : List Event) :
    (Place.absorbAll (logs.map Place.free) ixs).2 = unpaired logs ixs := by
  rw [Place.absorbAll_snd]
  simp only [target?_free, unpaired]

/-- What comes out and what was taken in make up what went in. -/
theorem length_reconcile (ixs logs : List Event) :
    (reconcile ixs logs).length + pairCount logs ixs = ixs.length + logs.length := by
  have hplaces := Place.length_absorbAll (logs.map Place.free) ixs
  have hixs := pairCount_add_length_unpaired logs ixs
  rw [reconcile, List.length_append, List.length_map, absorbAll_free_snd, hplaces, List.length_map]
  omega

/-- No log event takes in more than one event. -/
theorem pairCount_le_length (logs ixs : List Event) : pairCount logs ixs ≤ logs.length := by
  have htaken := Place.countP_taken_absorbAll (logs.map Place.free) ixs
  have hixs := pairCount_add_length_unpaired logs ixs
  have hfree : (logs.map Place.free).countP Place.taken = 0 := by
    rw [List.countP_map]
    exact List.countP_eq_zero.2 fun _ _ => Bool.false_ne_true
  have hbound : (Place.absorbAll (logs.map Place.free) ixs).1.countP Place.taken ≤ logs.length := by
    have hle := List.countP_le_length (p := Place.taken)
      (l := (Place.absorbAll (logs.map Place.free) ixs).1)
    rwa [Place.length_absorbAll, List.length_map] at hle
  rw [absorbAll_free_snd] at htaken
  omega

/-- Only an event that describes a doing is taken in. -/
theorem pairCount_le_countP (logs ixs : List Event) :
    pairCount logs ixs ≤ ixs.countP fun ix => ix.doing?.isSome := by
  induction ixs using List.reverseRecOn with
  | nil => exact Nat.le_refl 0
  | append_singleton ixs ix ih =>
    rw [pairCount_append, List.countP_append, List.countP_singleton]
    by_cases hmore : ixs.countP (·.pairsWith ix) < logs.countP (·.pairsWith ix)
    · have hpositive : 0 < logs.countP (·.pairsWith ix) := by omega
      obtain ⟨log, -, hpairs⟩ := List.countP_pos_iff.1 hpositive
      obtain ⟨d, -, hd⟩ := Event.pairsWith_iff.1 hpairs
      have hsome : ix.doing?.isSome = true := by rw [hd]; rfl
      rw [if_pos hmore, if_pos hsome]
      omega
    · rw [if_neg hmore]
      omega

end DexFeed
