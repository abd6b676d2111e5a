import DexFeed.Proofs.Queue.Ring

/-!
# First in, first out

A ring answers every sequence of requests as a list of bounded length would: it accepts a value
exactly while there is room and gives the values back in the order in which it accepted them. No lap
of the positions changes that, and no request ever finds a cell that another party has passed.
Positions and sequence numbers wrap after `2 ^ 64` as in the running program, and so does the signed
difference between them; only the count of refused values is unbounded.
-/

namespace DexFeed

variable {α : Type}

/-! ## One request -/

namespace Ring

variable {r : Ring α} {k first : Nat} {items : List α}

/-- A ring appends a value exactly when a list would, and counts the refused values as well. -/
theorem Holds.push_eq (h : r.Holds k first items) (x : α) :
    ∃ items', (r.push x).2.Holds k first items' ∧
      ((r.push x).1, (⟨items', (r.push x).2.dropped⟩ : Backlog α)) =
        Backlog.push (2 ^ k) ⟨items, r.dropped⟩ x := by
  by_cases hroom : items.length < 2 ^ k
  · rw [h.push_of_room hroom, Backlog.push, if_pos hroom]
    exact ⟨items ++ [x], h.appended hroom x, rfl⟩
  · have hfull : items.length = 2 ^ k := Nat.le_antisymm h.length_le (Nat.not_lt.mp hroom)
    rw [h.push_of_full hfull, Backlog.push, if_neg hroom]
    exact ⟨items, ⟨h.size_eq, h.one_le, h.le_bits, h.head_eq, h.tail_eq, h.length_le, h.cell_eq⟩,
      rfl⟩

/-- A ring takes off what a list would, and the position behind the newest value stays. -/
theorem Holds.pop_eq (h : r.Holds k first items) :
    ∃ first' items', r.pop.2.Holds k first' items' ∧
      first' + items'.length = first + items.length ∧
      (r.pop.1, (⟨items', r.pop.2.dropped⟩ : Backlog α)) = Backlog.pop ⟨items, r.dropped⟩ := by
  cases items with
  | nil =>
    rw [h.pop_of_nil]
    exact ⟨first, [], h, rfl, rfl⟩
  | cons x items =>
    rw [h.pop_of_cons]
    refine ⟨first + 1, items, h.advanced, ?_, rfl⟩
    rw [List.length_cons]
    omega

/-- A ring that holds some values is seen as their backlog. -/
theorem Holds.backlog_eq (h : r.Holds k first items) : r.backlog = ⟨items, r.dropped⟩ := by
  rw [backlog, h.toList_eq]

/-- No cell of a ring that one party uses is ahead of the next position to fill. -/
theorem Holds.pushTurn_ne (h : r.Holds k first items) : r.pushTurn ≠ .ahead := by
  by_cases hroom : items.length < 2 ^ k
  · rw [h.pushTurn_of_room hroom]
    decide
  · rw [h.pushTurn_of_full (Nat.le_antisymm h.length_le (Nat.not_lt.mp hroom))]
    decide

/-- No cell of a ring that one party uses is ahead of the next position to empty. -/
theorem Holds.popTurn_ne (h : r.Holds k first items) : r.popTurn ≠ .ahead := by
  cases items with
  | nil =>
    rw [h.popTurn_of_nil]
    decide
  | cons x items =>
    rw [h.popTurn_of_cons]
    decide

/-- A ring gives the answer of the list that it holds and then holds what that list has become. -/
theorem Holds.answer_eq (h : r.Holds k first items) (request : QueueRequest α) :
    ∃ first' items', (r.answer request).2.Holds k first' items' ∧
      ((r.answer request).1, (⟨items', (r.answer request).2.dropped⟩ : Backlog α)) =
        Backlog.answer (2 ^ k) ⟨items, r.dropped⟩ request ∧
      first' + items'.length =
        first + items.length + (QueueAnswer.added [request] [(r.answer request).1]).length := by
  cases request with
  | push x =>
    obtain ⟨items', h', heq⟩ := h.push_eq x
    refine ⟨first, items', h', ?_, ?_⟩
    · rw [answer, Backlog.answer, ← heq]
    · have hlength : items'.length = items.length + if (r.push x).1 then 1 else 0 := by
        unfold Backlog.push at heq
        split at heq
        · rw [Prod.mk.injEq, Backlog.mk.injEq] at heq
          rw [heq.1, heq.2.1, List.length_append]
          rfl
        · rw [Prod.mk.injEq, Backlog.mk.injEq] at heq
          rw [heq.1, heq.2.1]
          rfl
      rw [hlength, answer, ← Nat.add_assoc]
      cases (r.push x).1 <;> rfl
  | pop =>
    obtain ⟨first', items', h', hlength, heq⟩ := h.pop_eq
    refine ⟨first', items', h', ?_, hlength⟩
    rw [answer, Backlog.answer, ← heq]

/-! ## Rings that hold some list -/

/-- The cells of a ring hold a list. -/
def Sound (r : Ring α) : Prop :=
  ∃ k first items, r.Holds k first items

/-- A new ring holds a list. -/
theorem sound_empty (n : UInt64) : (empty n : Ring α).Sound := by
  obtain ⟨k, h, -⟩ := holds_empty (α := α) n
  exact ⟨k, 0, [], h⟩

/-- A new ring holds no value. -/
theorem toList_empty (n : UInt64) : (empty n : Ring α).toList = [] := by
  obtain ⟨k, h, -⟩ := holds_empty (α := α) n
  exact h.toList_eq

/-- The distance between the positions is the number of values. -/
theorem Sound.span_eq (h : r.Sound) : r.span = r.toList.length := by
  obtain ⟨k, first, items, h⟩ := h
  rw [h.span_eq, h.toList_eq]

/-- A push does to the ring what it does to the bounded queue, answer included. -/
theorem Sound.push_eq (h : r.Sound) (x : α) :
    (r.push x).2.Sound ∧
      ((r.push x).1, (r.push x).2.backlog) = r.backlog.push r.capacity.toNat x := by
  obtain ⟨k, first, items, h⟩ := h
  obtain ⟨items', h', heq⟩ := h.push_eq x
  refine ⟨⟨k, first, items', h'⟩, ?_⟩
  rw [h.backlog_eq, h'.backlog_eq, h.toNat_capacity, heq]

/-- A ring still holds a list after a push. -/
theorem Sound.push (h : r.Sound) (x : α) : (r.push x).2.Sound :=
  (h.push_eq x).1

/-- While there is room a value goes to the end, and nothing is dropped. -/
theorem Sound.push_of_room (h : r.Sound) (hroom : r.toList.length < r.capacity.toNat) (x : α) :
    (r.push x).1 = true ∧ (r.push x).2.toList = r.toList ++ [x] ∧
      (r.push x).2.dropped = r.dropped := by
  have heq := (h.push_eq x).2.trans (if_pos hroom)
  rw [Prod.mk.injEq, backlog, Backlog.mk.injEq] at heq
  exact heq

/-- A full ring refuses a value and counts it. -/
theorem Sound.push_of_full (h : r.Sound) (hfull : ¬r.toList.length < r.capacity.toNat) (x : α) :
    (r.push x).1 = false ∧ (r.push x).2.toList = r.toList ∧
      (r.push x).2.dropped = r.dropped + 1 := by
  have heq := (h.push_eq x).2.trans (if_neg hfull)
  rw [Prod.mk.injEq, backlog, Backlog.mk.injEq] at heq
  exact heq

/-- A ring takes a value exactly while there is room. -/
theorem Sound.push_fst_iff (h : r.Sound) (x : α) :
    (r.push x).1 = true ↔ r.toList.length < r.capacity.toNat := by
  by_cases hroom : r.toList.length < r.capacity.toNat
  · exact iff_of_true (h.push_of_room hroom x).1 hroom
  · have hrefused := (h.push_of_full hroom x).1
    exact iff_of_false (fun htaken => Bool.false_ne_true (hrefused.symm.trans htaken)) hroom

/-- A ring still holds a list after a pop. -/
theorem Sound.pop (h : r.Sound) : r.pop.2.Sound := by
  obtain ⟨k, first, items, h⟩ := h
  obtain ⟨first', items', h', -, -⟩ := h.pop_eq
  exact ⟨k, first', items', h'⟩

/-- A pop takes the oldest value, if there is one. -/
theorem Sound.pop_eq (h : r.Sound) :
    r.pop.1 = r.toList.head? ∧ r.pop.2.toList = r.toList.tail ∧ r.pop.2.dropped = r.dropped := by
  obtain ⟨k, first, items, h⟩ := h
  obtain ⟨first', items', h', -, heq⟩ := h.pop_eq
  rw [Backlog.pop, Prod.mk.injEq, Backlog.mk.injEq] at heq
  rw [h.toList_eq, h'.toList_eq]
  exact heq

/-- A push does not change the capacity. -/
theorem capacity_push (r : Ring α) (x : α) : (r.push x).2.capacity = r.capacity := by
  unfold push
  cases r.pushTurn <;> rfl

/-- A pop does not change the capacity. -/
theorem capacity_pop (r : Ring α) : r.pop.2.capacity = r.capacity := by
  unfold pop
  cases r.popTurn <;> rfl

end Ring

/-! ## Many requests -/

/-- What a list had and was given is what it gave back and still has, in the same order. -/
theorem Backlog.answer_conserves (capacity : Nat) (b : Backlog α) (request : QueueRequest α) :
    b.waiting ++ (QueueAnswer.added? request (b.answer capacity request).1).toList =
      (QueueAnswer.taken? (b.answer capacity request).1).toList ++
        (b.answer capacity request).2.waiting := by
  cases request with
  | push x =>
    rw [Backlog.answer, Backlog.push]
    split
    · rfl
    · exact List.append_nil _
  | pop =>
    obtain ⟨waiting, refused⟩ := b
    cases waiting with
    | nil => rfl
    | cons x waiting => exact List.append_nil _

/-- What a first request adds comes before what the later ones add. -/
theorem QueueAnswer.added_cons (request : QueueRequest α) (requests : List (QueueRequest α))
    (answer : QueueAnswer α) (answers : List (QueueAnswer α)) :
    added (request :: requests) (answer :: answers) =
      (added? request answer).toList ++ added requests answers := by
  rw [added, List.zipWith_cons_cons, List.filterMap_cons]
  cases added? request answer <;> rfl

/-- What a first request takes comes before what the later ones take. -/
theorem QueueAnswer.taken_cons (answer : QueueAnswer α) (answers : List (QueueAnswer α)) :
    taken (answer :: answers) = answer.taken?.toList ++ taken answers := by
  rw [taken, List.filterMap_cons]
  cases answer.taken? <;> rfl

/-- What waited and what was added is what was taken and what waits, in the same order. -/
theorem Backlog.serve_conserves (capacity : Nat) (b : Backlog α)
    (requests : List (QueueRequest α)) :
    b.waiting ++ QueueAnswer.added requests (serve (Backlog.answer capacity) b requests).1 =
      QueueAnswer.taken (serve (Backlog.answer capacity) b requests).1 ++
        (serve (Backlog.answer capacity) b requests).2.waiting := by
  induction requests generalizing b with
  | nil => exact List.append_nil _
  | cons request requests ih =>
    rw [serve, QueueAnswer.added_cons, QueueAnswer.taken_cons, ← List.append_assoc,
      Backlog.answer_conserves, List.append_assoc, ih, List.append_assoc]

/-- From a ring that holds a list on, all answers are those of the list. -/
theorem Ring.Holds.serve_eq {r : Ring α} {k first : Nat} {items : List α}
    (h : r.Holds k first items) (requests : List (QueueRequest α)) :
    ∃ first' items', (serve Ring.answer r requests).2.Holds k first' items' ∧
      ((serve Ring.answer r requests).1, (serve Ring.answer r requests).2.backlog) =
        serve (Backlog.answer (2 ^ k)) ⟨items, r.dropped⟩ requests ∧
      first' + items'.length = first + items.length +
        (QueueAnswer.added requests (serve Ring.answer r requests).1).length := by
  induction requests generalizing r first items with
  | nil => exact ⟨first, items, h, by rw [serve, serve, h.backlog_eq], rfl⟩
  | cons request requests ih =>
    obtain ⟨first', items', h', heq, hcount⟩ := h.answer_eq request
    obtain ⟨first'', items'', h'', heq', hcount'⟩ := ih h'
    refine ⟨first'', items'', h'', ?_, ?_⟩
    · rw [serve, serve, ← heq, ← heq']
    · rw [serve, QueueAnswer.added_cons, List.length_append, hcount', hcount,
        QueueAnswer.added_cons, List.length_append, Nat.add_assoc]
      rfl

/-- A new ring answers any requests as an empty list would that may grow to the ring's capacity, a
power of two that is no smaller than what was asked for. The list is what waits in the ring, and
the refused values are counted. So the values come back in the order in which they were accepted,
none is lost or comes twice, and no request meets a cell that another party has passed, also where
positions and their signed differences wrap. The number of values that wait is reported right until
`2 ^ 64` values were accepted, and the count of refused values is a natural number. -/
theorem Ring.serve_empty {n : UInt64} (hn : n.toNat ≤ 2 ^ 63) (requests : List (QueueRequest α)) :
    let capacity := (Ring.empty n : Ring α).capacity.toNat
    let ring := serve Ring.answer (Ring.empty n) requests
    let list := serve (Backlog.answer capacity) Backlog.empty requests
    (n.toNat ≤ capacity ∧ ∃ k, 1 ≤ k ∧ capacity = 2 ^ k) ∧
      ring.1 = list.1 ∧ ring.2.backlog = list.2 ∧ ring.2.capacity.toNat = capacity ∧
      QueueAnswer.added requests ring.1 = QueueAnswer.taken ring.1 ++ ring.2.toList ∧
      ring.2.pushTurn ≠ .ahead ∧ ring.2.popTurn ≠ .ahead ∧
      ((QueueAnswer.added requests ring.1).length < 2 ^ 64 →
        ring.2.size = ring.2.toList.length) := by
  intro capacity ring list
  obtain ⟨k, hempty, hle⟩ := Ring.holds_empty (α := α) n
  have hcapacity : capacity = 2 ^ k := hempty.toNat_capacity
  obtain ⟨first, items, h, heq, hcount⟩ := hempty.serve_eq requests
  have hlist : (ring.1, ring.2.backlog) = list := by
    rw [show list = serve (Backlog.answer (2 ^ k)) Backlog.empty requests from hcapacity ▸ rfl]
    exact heq
  have hconserved := Backlog.serve_conserves capacity Backlog.empty requests
  refine ⟨⟨hcapacity ▸ hle hn, k, hempty.one_le, hcapacity⟩, congrArg Prod.fst hlist,
    congrArg Prod.snd hlist, h.toNat_capacity.trans hcapacity.symm, ?_, h.pushTurn_ne,
    h.popTurn_ne, fun hlt => ?_⟩
  · rw [congrArg Prod.fst hlist, show ring.2.toList = list.2.waiting from
      congrArg (fun x => x.2.waiting) hlist]
    exact hconserved
  · rw [List.length_nil, Nat.zero_add] at hcount
    rw [h.size_eq_length (hcount ▸ hlt), h.toList_eq]

/-- A ring of two cells refuses a third value, and two of the others wait in the end. -/
theorem Ring.serve_empty_twice_around :
    let requests : List (QueueRequest Char) :=
      [.push 'a', .push 'b', .push 'c', .pop, .push 'd', .pop, .push 'e']
    let ring := serve Ring.answer (Ring.empty 2) requests
    (2 : UInt64).toNat ≤ 2 ^ 63 ∧
      ring.1 = [.pushed true, .pushed true, .pushed false, .popped (some 'a'), .pushed true,
        .popped (some 'b'), .pushed true] ∧
      ring.2.backlog = ⟨['d', 'e'], 1⟩ ∧ (QueueAnswer.added requests ring.1).length < 2 ^ 64 ∧
      ring.2.size = 2 := by
  intro requests ring
  obtain ⟨-, hanswers, hbacklog, -, -, -, -, hsize⟩ :=
    Ring.serve_empty (by decide : (2 : UInt64).toNat ≤ 2 ^ 63) requests
  have hwaiting : ring.2.backlog = ⟨['d', 'e'], 1⟩ := by
    rw [hbacklog]
    decide +kernel
  have hadded : (QueueAnswer.added requests ring.1).length < 2 ^ 64 := by
    rw [hanswers]
    decide +kernel
  refine ⟨by decide, ?_, hwaiting, hadded, ?_⟩
  · rw [hanswers]
    decide +kernel
  · rw [hsize hadded]
    exact congrArg (fun b => b.waiting.length) hwaiting

end DexFeed
