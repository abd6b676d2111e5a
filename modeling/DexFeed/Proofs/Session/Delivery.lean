import DexFeed.Proofs.Queue.Fifo
import DexFeed.Session.Ledger

/-!
# No event is lost

A session that delivers to its queue accounts for every event it makes. What a stretch of its life
does to the queue and to the counters follows from the ledger of that stretch alone: the events that
waited and those that were accepted are those that left and those that wait behind, in the same
order, and every counter has grown by the number of its entries. `Carries` says so. It holds of one
event that is offered, taken off or handled, and of two stretches in a row, hence of every history,
however full the queue was and whichever handlers failed. All counters are natural numbers, as those
of the running program are until one of them reaches `2 ^ 64`.
-/

namespace DexFeed

/-! ## Ledgers in a row -/

namespace Ledger

variable (l m : Ledger)

/-- What two stretches produced is what each produced. -/
theorem produced_append : (l.append m).produced = l.produced ++ m.produced :=
  List.map_append

/-- What was accepted in two stretches was accepted in one of them, the first one first. -/
theorem accepted_append : (l.append m).accepted = l.accepted ++ m.accepted := by
  rw [accepted, append, List.filter_append, List.map_append]
  rfl

/-- What was refused in two stretches was refused in one of them, the first one first. -/
theorem refused_append : (l.append m).refused = l.refused ++ m.refused := by
  rw [refused, append, List.filter_append, List.map_append]
  rfl

/-- What left in two stretches left in one of them, the first one first. -/
theorem left_append : (l.append m).left = l.left ++ m.left :=
  List.map_append

/-- The outcomes of two stretches are those of each. -/
theorem outcomes_append : (l.append m).outcomes = l.outcomes ++ m.outcomes :=
  List.filterMap_append

/-- Of a row that is accepted up to a point the rest is refused. -/
theorem refused_row (es es' : List Event) (taken : List (Event × Option Bool)) :
    refused ⟨es.map (·, true) ++ es'.map (·, false), taken⟩ = es' := by
  have hfirst : (es.map (·, true)).filter (!·.2) = [] := by
    rw [List.filter_map]
    exact congrArg _ (List.filter_false es)
  have hrest : (es'.map (·, false)).filter (!·.2) = es'.map (·, false) := by
    rw [List.filter_map]
    exact congrArg _ (List.filter_true es')
  rw [refused, List.filter_append, hfirst, hrest, List.nil_append, List.map_map]
  exact List.map_id _

end Ledger

namespace Session

variable {s s' s'' : Session} {l m : Ledger}

/-! ## What a ledger says about a stretch -/

/-- A session delivers to a queue whose cells are in order. -/
structure Queueing (s : Session) : Prop where
  /-- Events go to the queue. -/
  sink_eq : s.sink = .queue
  /-- The cells of the queue hold a list. -/
  sound : s.queue.Sound

/-- The way from one session to another is what a ledger says. -/
structure Carries (s : Session) (l : Ledger) (s' : Session) : Prop where
  /-- Events still go to the queue. -/
  queueing : s'.Queueing
  /-- The settings stay. -/
  config_eq : s'.config = s.config
  /-- The room of the queue stays. -/
  capacity_eq : s'.queue.capacity = s.queue.capacity
  /-- What waited or was accepted has left or waits. -/
  conserved : (s.queue.toList ++ l.accepted).map Event.unstamped =
    (l.left ++ s'.queue.toList).map Event.unstamped
  /-- The session counts the accepted events. -/
  delivered_eq : s'.stats.delivered = s.stats.delivered + l.accepted.length
  /-- The session counts the refused events. -/
  dropped_eq : s'.stats.dropped = s.stats.dropped + l.refused.length
  /-- The queue counts the refused events. -/
  queueDropped_eq : s'.queue.dropped = s.queue.dropped + l.refused.length
  /-- The consumer counts the handled events. -/
  consumed_eq : s'.consumer.consumed = s.consumer.consumed + l.outcomes.length
  /-- The consumer counts the failures. -/
  handlerErrors_eq :
    s'.consumer.handlerErrors = s.consumer.handlerErrors + l.outcomes.count false

/-- To count what was decoded is nothing to the queue. -/
theorem Queueing.carries_counting (h : s.Queueing) {stats : Stats} {times : SampleWindow}
    (hdelivered : stats.delivered = s.stats.delivered)
    (hdropped : stats.dropped = s.stats.dropped) :
    Carries s .blank { s with stats := stats, decodeTimes := times } where
  queueing := ⟨h.sink_eq, h.sound⟩
  config_eq := rfl
  capacity_eq := rfl
  conserved := congrArg _ (List.append_nil _)
  delivered_eq := hdelivered
  dropped_eq := hdropped
  queueDropped_eq := rfl
  consumed_eq := rfl
  handlerErrors_eq := rfl

/-- Where nothing happens nothing is carried. -/
theorem Queueing.carries_self (h : s.Queueing) : Carries s .blank s :=
  h.carries_counting rfl rfl

/-- What is carried in one stretch and the next is carried in both. -/
theorem Carries.trans (h : Carries s l s') (h' : Carries s' m s'') :
    Carries s (l.append m) s'' where
  queueing := h'.queueing
  config_eq := h'.config_eq.trans h.config_eq
  capacity_eq := h'.capacity_eq.trans h.capacity_eq
  conserved := by
    have hfirst := h.conserved
    have hsecond := h'.conserved
    rw [List.map_append, List.map_append] at hfirst hsecond
    rw [Ledger.accepted_append, Ledger.left_append]
    simp only [List.map_append]
    -- What waits between the two stretches is left of the one and taken up by the other.
    rw [← List.append_assoc, hfirst, List.append_assoc, hsecond, List.append_assoc]
  delivered_eq := by
    rw [h'.delivered_eq, h.delivered_eq, Ledger.accepted_append, List.length_append,
      Nat.add_assoc]
  dropped_eq := by
    rw [h'.dropped_eq, h.dropped_eq, Ledger.refused_append, List.length_append, Nat.add_assoc]
  queueDropped_eq := by
    rw [h'.queueDropped_eq, h.queueDropped_eq, Ledger.refused_append, List.length_append,
      Nat.add_assoc]
  consumed_eq := by
    rw [h'.consumed_eq, h.consumed_eq, Ledger.outcomes_append, List.length_append, Nat.add_assoc]
  handlerErrors_eq := by
    rw [h'.handlerErrors_eq, h.handlerErrors_eq, Ledger.outcomes_append, List.count_append,
      Nat.add_assoc]

/-! ## One event -/

/-- The ledger of one event that is offered. -/
def offer (e : Event) (accepted : Bool) : Ledger := ⟨[(e, accepted)], []⟩

/-- A queue with room takes an event. -/
theorem Queueing.deliver_of_room (h : s.Queueing)
    (hroom : s.queue.toList.length < s.queue.capacity.toNat) (now : Int64)
    (callback : Event → Bool) (e : Event) :
    s.deliver now callback e =
      ⟨1, [], true, { s with queue := (s.queue.push e).2 }.countDelivered⟩ := by
  simp only [deliver, h.sink_eq, (h.sound.push_of_room hroom e).1, if_true]

/-- A full queue refuses an event. -/
theorem Queueing.deliver_of_full (h : s.Queueing)
    (hfull : ¬s.queue.toList.length < s.queue.capacity.toNat) (now : Int64)
    (callback : Event → Bool) (e : Event) :
    s.deliver now callback e =
      ⟨0, [], true, { s with queue := (s.queue.push e).2 }.countDropped⟩ := by
  simp only [deliver, h.sink_eq, (h.sound.push_of_full hfull e).1, Bool.false_eq_true, if_false]

/-- A queue never ends a call early. -/
theorem Queueing.finished_deliver (h : s.Queueing) (now : Int64) (callback : Event → Bool)
    (e : Event) : (s.deliver now callback e).finished = true := by
  by_cases hroom : s.queue.toList.length < s.queue.capacity.toNat
  · rw [h.deliver_of_room hroom]
  · rw [h.deliver_of_full hroom]

/-- An event that is handed on is appended and counted, or refused and counted. -/
theorem Queueing.carries_deliver (h : s.Queueing) (now : Int64) (callback : Event → Bool)
    (e : Event) :
    Carries s (offer e ((s.deliver now callback e).accepted == 1))
      (s.deliver now callback e).session := by
  by_cases hroom : s.queue.toList.length < s.queue.capacity.toNat
  · obtain ⟨-, hwaiting, hdropped⟩ := h.sound.push_of_room hroom e
    rw [h.deliver_of_room hroom]
    exact {
      queueing := ⟨h.sink_eq, h.sound.push e⟩
      config_eq := rfl
      capacity_eq := s.queue.capacity_push e
      conserved := congrArg (List.map _) hwaiting.symm
      delivered_eq := rfl
      dropped_eq := rfl
      queueDropped_eq := hdropped
      consumed_eq := rfl
      handlerErrors_eq := rfl }
  · obtain ⟨-, hwaiting, hdropped⟩ := h.sound.push_of_full hroom e
    rw [h.deliver_of_full hroom]
    exact {
      queueing := ⟨h.sink_eq, h.sound.push e⟩
      config_eq := rfl
      capacity_eq := s.queue.capacity_push e
      conserved := congrArg (List.map _) ((List.append_nil _).trans hwaiting.symm)
      delivered_eq := rfl
      dropped_eq := rfl
      queueDropped_eq := hdropped
      consumed_eq := rfl
      handlerErrors_eq := rfl }

/-- The oldest event leaves the queue, if one waits. -/
theorem Queueing.carries_pop (h : s.Queueing) :
    Carries s ⟨[], s.pop.1.toList.map (·, none)⟩ s.pop.2 := by
  obtain ⟨hvalue, hwaiting, hdropped⟩ := h.sound.pop_eq
  have houtcomes : ∀ e? : Option Event,
      Ledger.outcomes ⟨[], e?.toList.map (·, none)⟩ = [] := fun e? => by cases e? <;> rfl
  exact {
    queueing := ⟨h.sink_eq, h.sound.pop⟩
    config_eq := rfl
    capacity_eq := s.queue.capacity_pop
    conserved := by
      rw [pop, hwaiting, hvalue]
      cases s.queue.toList with
      | nil => rfl
      | cons e es => exact congrArg _ (List.append_nil _)
    delivered_eq := rfl
    dropped_eq := rfl
    queueDropped_eq := hdropped
    consumed_eq := by
      rw [houtcomes]
      rfl
    handlerErrors_eq := by
      rw [houtcomes]
      rfl }

/-- An event that left the queue is handled, whether its handler succeeds or fails. -/
theorem Carries.handle {e : Event} (h : Carries s ⟨[], [(e, none)]⟩ s') (now : Int64)
    (succeeded : Bool) :
    Carries s ⟨[], [(e.handled now, some succeeded)]⟩
      { s' with consumer := s'.consumer.handle now succeeded (e.handled now) } where
  queueing := ⟨h.queueing.sink_eq, h.queueing.sound⟩
  config_eq := h.config_eq
  capacity_eq := h.capacity_eq
  conserved := h.conserved
  delivered_eq := h.delivered_eq
  dropped_eq := h.dropped_eq
  queueDropped_eq := h.queueDropped_eq
  consumed_eq := congrArg (· + 1) h.consumed_eq
  handlerErrors_eq := by
    have herrors : s'.consumer.handlerErrors = s.consumer.handlerErrors := h.handlerErrors_eq
    cases succeeded with
    | true => exact herrors
    | false => exact congrArg (· + 1) herrors

/-! ## Many events -/

/-- Events in a row are handed on one by one, and none ends the call. -/
theorem Queueing.deliverAll_cons (h : s.Queueing) (now : Int64) (callback : Nat → Event → Bool)
    (e : Event) (es : List Event) :
    let rest :=
      (s.deliver now (callback 0) e).session.deliverAll now (fun i => callback (i + 1)) es
    s.deliverAll now callback (e :: es) =
      ⟨(s.deliver now (callback 0) e).accepted + rest.accepted,
        (s.deliver now (callback 0) e).seen ++ rest.seen, rest.finished, rest.session⟩ := by
  rw [deliverAll, if_pos (h.finished_deliver now (callback 0) e)]

/-- Every event in a row gets its verdict. -/
theorem Queueing.verdicts_cons (h : s.Queueing) (now : Int64) (callback : Nat → Event → Bool)
    (e : Event) (es : List Event) :
    s.verdicts now callback (e :: es) =
      (e, (s.deliver now (callback 0) e).accepted == 1) ::
        (s.deliver now (callback 0) e).session.verdicts now (fun i => callback (i + 1)) es := by
  rw [verdicts, if_pos (h.finished_deliver now (callback 0) e)]

/-- Events in a row do what their verdicts say. -/
theorem Queueing.carries_deliverAll (h : s.Queueing) (now : Int64)
    (callback : Nat → Event → Bool) (es : List Event) :
    Carries s ⟨s.verdicts now callback es, []⟩ (s.deliverAll now callback es).session := by
  induction es generalizing s callback with
  | nil => exact h.carries_self
  | cons e es ih =>
    have hfirst := h.carries_deliver now (callback 0) e
    rw [h.deliverAll_cons, h.verdicts_cons]
    exact hfirst.trans (ih hfirst.queueing _)

/-- The consumer handles events one after the other, and a failure does not keep it from the
next. -/
theorem Queueing.carries_handleUpTo (h : s.Queueing) (now : Int64)
    (handler : Nat → Event → Bool) (count : Nat) :
    Carries s
      ⟨[], (handleUpTo now handler count s).1.mapIdx fun i e =>
        (e, some (handler (s.consumer.consumed + i) e))⟩
      (handleUpTo now handler count s).2 := by
  induction count generalizing s with
  | zero => exact h.carries_self
  | succ count ih =>
    have hpop := h.carries_pop
    rw [handleUpTo]
    rcases hvalue : s.pop with ⟨_ | e, s'⟩
    · rw [hvalue] at hpop
      exact hpop
    · rw [hvalue] at hpop
      have hbefore : s'.consumer.consumed = s.consumer.consumed := hpop.consumed_eq
      have hfirst := hpop.handle now (handler s.consumer.consumed (e.handled now))
      simp only [hbefore, List.mapIdx_cons]
      -- Only the count of the next session matters, and it is one higher whatever the handler did.
      generalize ({ s' with consumer := _ } : Session) = next at hfirst ⊢
      have hafter : next.consumer.consumed = s.consumer.consumed + 1 := hfirst.consumed_eq
      have hindex : ∀ i, s.consumer.consumed + 1 + i = s.consumer.consumed + (i + 1) := by omega
      have hrest := hfirst.trans (ih hfirst.queueing)
      simp only [hafter, hindex] at hrest
      exact hrest

/-! ## Commands -/

/-- Every command does what its entry says. -/
theorem Queueing.carries_perform (h : s.Queueing) (now : Int64) (elapsed : Nat)
    (command : Command) :
    Carries s (s.entry now elapsed command) (s.perform now elapsed command).2 := by
  cases command with
  | ingest tx callback =>
    have hdecoded : Carries s .blank (s.decode elapsed tx).2 := h.carries_counting rfl rfl
    exact hdecoded.trans (hdecoded.queueing.carries_deliverAll now callback _)
  | decode tx => exact h.carries_counting rfl rfl
  | account update callback =>
    rw [entry, perform, ingestAccountWith]
    cases snapshot? s.config update with
    | none => exact h.carries_self
    | some e =>
      have hcounted : Carries s .blank
          { s with stats := { s.stats with accounts := s.stats.accounts + 1 } } :=
        h.carries_counting rfl rfl
      exact hcounted.trans (hcounted.queueing.carries_deliver now callback e)
  | block info callback =>
    have hcounted : Carries s .blank
        { s with stats := { s.stats with blocks := s.stats.blocks + 1 } } :=
      h.carries_counting rfl rfl
    exact hcounted.trans (hcounted.queueing.carries_deliver now callback (blockEvent info))
  | pop => exact h.carries_pop
  | drain handler => exact h.carries_handleUpTo now handler _

/-- Every history does what its ledger says. -/
theorem Queueing.carries_run (h : s.Queueing) (history : List (Int64 × Nat × Command)) :
    Carries s (s.ledger history) (s.run history).2 := by
  induction history generalizing s with
  | nil => exact h.carries_self
  | cons step history ih =>
    obtain ⟨now, elapsed, command⟩ := step
    have hfirst := h.carries_perform now elapsed command
    exact hfirst.trans (ih hfirst.queueing)

/-! ## What is offered -/

/-- Verdicts are given on the events that were handed on. -/
theorem Queueing.verdicts_fst (h : s.Queueing) (now : Int64) (callback : Nat → Event → Bool)
    (es : List Event) : (s.verdicts now callback es).map (·.1) = es := by
  induction es generalizing s callback with
  | nil => rfl
  | cons e es ih =>
    have hnext := (h.carries_deliver now (callback 0) e).queueing
    rw [h.verdicts_cons]
    exact congrArg (e :: ·) (ih hnext _)

/-- A command offers the events that it makes. -/
theorem Queueing.produced_entry (h : s.Queueing) (now : Int64) (elapsed : Nat)
    (command : Command) :
    (s.entry now elapsed command).produced = command.produced s.config := by
  cases command with
  | ingest tx callback =>
    have hdecoded : (s.decode elapsed tx).2.Queueing := ⟨h.sink_eq, h.sound⟩
    exact hdecoded.verdicts_fst now callback _
  | account update callback =>
    rw [entry, Ledger.produced, List.map_map]
    exact List.map_id _
  | pop => rfl
  | decode tx => rfl
  | block info callback => rfl
  | drain handler => rfl

/-- The ledger of a history has the events of its commands, in order. -/
theorem Queueing.produced_ledger (h : s.Queueing) (history : List (Int64 × Nat × Command)) :
    (s.ledger history).produced = history.flatMap (·.2.2.produced s.config) := by
  induction history generalizing s with
  | nil => rfl
  | cons step history ih =>
    obtain ⟨now, elapsed, command⟩ := step
    have hfirst := h.carries_perform now elapsed command
    rw [ledger, Ledger.produced_append, h.produced_entry, ih hfirst.queueing, hfirst.config_eq,
      List.flatMap_cons]

/-- Of events handed on in a row those that find room are accepted, and all behind them refused. -/
theorem Queueing.verdicts_eq (h : s.Queueing) (now : Int64) (callback : Nat → Event → Bool)
    (es : List Event) {free : Nat}
    (hfree : s.queue.capacity.toNat - s.queue.toList.length = free) :
    s.verdicts now callback es =
      (es.take free).map (·, true) ++ (es.drop free).map (·, false) := by
  induction es generalizing s callback free with
  | nil => rw [List.take_nil, List.drop_nil]; rfl
  | cons e es ih =>
    have hnext := (h.carries_deliver now (callback 0) e).queueing
    rw [h.verdicts_cons]
    by_cases hroom : s.queue.toList.length < s.queue.capacity.toNat
    · obtain ⟨free, rfl⟩ : ∃ n, free = n + 1 := ⟨free - 1, by omega⟩
      obtain ⟨-, hwaiting, -⟩ := h.sound.push_of_room hroom e
      rw [h.deliver_of_room hroom] at hnext ⊢
      have hrest : (s.queue.push e).2.capacity.toNat - (s.queue.push e).2.toList.length = free := by
        rw [s.queue.capacity_push, hwaiting, List.length_append, List.length_singleton]
        omega
      rw [ih hnext _ hrest, List.take_succ_cons, List.drop_succ_cons]
      rfl
    · obtain rfl : free = 0 := by omega
      obtain ⟨-, hwaiting, -⟩ := h.sound.push_of_full hroom e
      rw [h.deliver_of_full hroom] at hnext ⊢
      have hrest : (s.queue.push e).2.capacity.toNat - (s.queue.push e).2.toList.length = 0 := by
        rw [s.queue.capacity_push, hwaiting]
        exact hfree
      rw [ih hnext _ hrest, List.take_zero, List.drop_zero, List.take_zero, List.drop_zero]
      rfl

/-- Handing events on comes to its end and answers how many of them were accepted. -/
theorem Queueing.accepted_deliverAll (h : s.Queueing) (now : Int64)
    (callback : Nat → Event → Bool) (es : List Event) :
    (s.deliverAll now callback es).finished = true ∧
      (s.deliverAll now callback es).accepted =
        (Ledger.accepted ⟨s.verdicts now callback es, []⟩).length := by
  induction es generalizing s callback with
  | nil => exact ⟨rfl, rfl⟩
  | cons e es ih =>
    have hnext := (h.carries_deliver now (callback 0) e).queueing
    obtain ⟨hfinished, haccepted⟩ := ih hnext fun i => callback (i + 1)
    have hrow : (⟨s.verdicts now callback (e :: es), []⟩ : Ledger) =
        (offer e ((s.deliver now (callback 0) e).accepted == 1)).append
          ⟨(s.deliver now (callback 0) e).session.verdicts now (fun i => callback (i + 1)) es,
            []⟩ := by
      rw [h.verdicts_cons]
      rfl
    have hone : (s.deliver now (callback 0) e).accepted =
        (offer e ((s.deliver now (callback 0) e).accepted == 1)).accepted.length := by
      by_cases hroom : s.queue.toList.length < s.queue.capacity.toNat
      · rw [h.deliver_of_room hroom]
        rfl
      · rw [h.deliver_of_full hroom]
        rfl
    rw [h.deliverAll_cons, hrow, Ledger.accepted_append, List.length_append, ← haccepted, ← hone]
    exact ⟨hfinished, rfl⟩

/-! ## What a drain hands over -/

/-- The consumer is given the oldest events, each once, and the others stay. -/
theorem Queueing.handleUpTo_eq (h : s.Queueing) (now : Int64) (handler : Nat → Event → Bool)
    (count : Nat) :
    (handleUpTo now handler count s).1 = (s.queue.toList.take count).map (·.handled now) ∧
      (handleUpTo now handler count s).2.queue.toList = s.queue.toList.drop count := by
  induction count generalizing s with
  | zero => exact ⟨rfl, rfl⟩
  | succ count ih =>
    have hnext := h.carries_pop.queueing
    have hvalue : s.pop.1 = s.queue.toList.head? := h.sound.pop_eq.1
    have hwaiting : s.pop.2.queue.toList = s.queue.toList.tail := h.sound.pop_eq.2.1
    rw [handleUpTo]
    rcases hpop : s.pop with ⟨_ | e, s'⟩
    · rw [hpop] at hvalue hwaiting
      have hnone : s.queue.toList = [] := List.head?_eq_none_iff.mp hvalue.symm
      rw [hnone] at hwaiting ⊢
      exact ⟨rfl, hwaiting⟩
    · rw [hpop] at hvalue hwaiting hnext
      obtain ⟨es, hes⟩ : ∃ es, s.queue.toList = e :: es :=
        ⟨_, List.eq_cons_of_mem_head? hvalue.symm⟩
      rw [hes] at hwaiting ⊢
      -- What the consumer has counted does not matter to what it is given next.
      have hhandled : ∀ c : Consumer,
          (handleUpTo now handler count { s' with consumer := c }).1 =
              (es.take count).map (·.handled now) ∧
            (handleUpTo now handler count { s' with consumer := c }).2.queue.toList =
              es.drop count := by
        intro c
        have hc : Queueing { s' with consumer := c } := ⟨hnext.sink_eq, hnext.sound⟩
        have hrest := ih hc
        rw [hwaiting] at hrest
        exact hrest
      exact ⟨congrArg (e.handled now :: ·) (hhandled _).1, (hhandled _).2⟩

/-- A drain hands over all that waits, whichever handlers fail, and leaves the queue empty. -/
theorem Queueing.drainWith_eq (h : s.Queueing) (now : Int64) (handler : Nat → Event → Bool) :
    (s.drainWith now handler).1 = s.queue.toList.map (·.handled now) ∧
      (s.drainWith now handler).2.queue.toList = [] := by
  obtain ⟨hhandled, hrest⟩ := h.handleUpTo_eq now handler s.queue.span
  rw [h.sound.span_eq] at hhandled hrest
  rw [List.take_length] at hhandled
  rw [List.drop_length] at hrest
  rw [drainWith, h.sound.span_eq]
  exact ⟨hhandled, hrest⟩

/-! ## Whole runs -/

/-- A new session with a queue is one whose events go to the queue. -/
theorem queueing_start (config : Config) : (start config .queue).Queueing :=
  ⟨rfl, Ring.sound_empty _⟩

/-- Whatever is asked of a new session that delivers to its queue, the books balance. The events
that left the queue, popped or handled, and those that still wait are, in this order, the events
that were produced without those that were refused; only the times of handling differ. The session
and its queue count the refused events, the session the accepted ones, and the consumer the handled
ones and the failures among them. A drain hands over all that waits, each event as it was but for
the time of handling, whichever handlers fail. Of the events of one more transaction as many are
accepted as there is room for, from the first on, and the call comes to its end and answers their
number. The counters are natural numbers here, which is what 64 bits hold until one reaches
`2 ^ 64`. -/
theorem run_balanced (config : Config) (history : List (Int64 × Nat × Command)) :
    let s := ((start config .queue).run history).2
    let l := (start config .queue).ledger history
    l.produced = history.flatMap (·.2.2.produced config) ∧
      (l.left ++ s.queue.toList).map Event.unstamped = l.accepted.map Event.unstamped ∧
      s.stats.delivered = l.accepted.length ∧
      s.stats.dropped = l.refused.length ∧
      s.queue.dropped = l.refused.length ∧
      s.consumer.consumed = l.outcomes.length ∧
      s.consumer.handlerErrors = l.outcomes.count false ∧
      s.queue.capacity = Capacity.roundUp config.queueCapacity ∧
      (∀ now handler,
        (s.drainWith now handler).1 = s.queue.toList.map (fun e =>
          { e with metadata := { e.metadata with handledAt := now } }) ∧
        (s.drainWith now handler).2.queue.toList = []) ∧
      ∀ now elapsed tx callback,
        let events := (tx.decode config).events
        let free := (Capacity.roundUp config.queueCapacity).toNat - s.queue.toList.length
        let more := s.entry now elapsed (.ingest tx callback)
        let handed := s.ingestWith now elapsed callback tx
        more.offered = (events.take free).map (·, true) ++ (events.drop free).map (·, false) ∧
          more.refused.length = events.length - free ∧
          handed.finished = true ∧ handed.accepted = more.accepted.length := by
  intro s l
  have hstart := queueing_start config
  have hrun : Carries (start config .queue) l s := hstart.carries_run history
  have hempty : (start config .queue).queue.toList = [] := Ring.toList_empty _
  have hcapacity : s.queue.capacity = Capacity.roundUp config.queueCapacity :=
    hrun.capacity_eq.trans (UInt64.sub_add_cancel _ _)
  have hconserved := hrun.conserved
  rw [hempty, List.nil_append] at hconserved
  refine ⟨hstart.produced_ledger history, hconserved.symm, ?_, ?_, ?_, ?_, ?_, hcapacity,
    fun now handler => hrun.queueing.drainWith_eq now handler, ?_⟩
  · exact hrun.delivered_eq.trans (Nat.zero_add _)
  · exact hrun.dropped_eq.trans (Nat.zero_add _)
  · exact hrun.queueDropped_eq.trans (Nat.zero_add _)
  · exact hrun.consumed_eq.trans (Nat.zero_add _)
  · exact hrun.handlerErrors_eq.trans (Nat.zero_add _)
  · intro now elapsed tx callback events free more handed
    have hevents : (s.decode elapsed tx).1 = events := by
      rw [decode, hrun.config_eq]
      rfl
    have hdecoded : (s.decode elapsed tx).2.Queueing :=
      ⟨hrun.queueing.sink_eq, hrun.queueing.sound⟩
    have hoffered : more.offered =
        (events.take free).map (·, true) ++ (events.drop free).map (·, false) := by
      rw [← hevents]
      have hfree : s.queue.capacity.toNat - s.queue.toList.length = free :=
        hcapacity ▸ rfl
      exact hdecoded.verdicts_eq now callback _ hfree
    have hrefused : more.refused = events.drop free := by
      rw [← Ledger.refused_row (events.take free) (events.drop free) [], ← hoffered]
      rfl
    refine ⟨hoffered, ?_, hdecoded.accepted_deliverAll now callback _⟩
    rw [hrefused, List.length_drop]

end Session

end DexFeed
