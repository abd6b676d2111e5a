import DexFeed.Proofs.Pass.Counting
import DexFeed.Proofs.Session.Handover
import DexFeed.Session.Ledger

/-!
# The counters agree

The counters of a session are moved at different points: what was found is counted when a
transaction is decoded, what became of the events when they are handed on, and events that decoding
alone returns are not handed on at all. `Balanced` relates them while some events are outstanding,
counted as found and not handed on yet. Decoding adds outstanding events, each delivery settles one,
and taking events off the queue touches no counter. A callback that fails settles nothing: the event
and those behind it are abandoned. What is outstanding after a history is therefore what was
returned and what was abandoned. The counters are 64 bits wide in the running program and natural
numbers here, so all this is said of sessions in which none of them has reached `2 ^ 64`.
-/

namespace DexFeed.Session

variable {config : Config} {s : Session} {n : Nat}

/-- The counters of a session with some settings agree, but for events that are counted and not
handed on. -/
structure Balanced (config : Config) (s : Session) (outstanding : Nat) : Prop where
  /-- The settings never change. -/
  config_eq : s.config = config
  /-- What was found and not merged was handed on, was refused or is outstanding. -/
  conserved : s.stats.delivered + s.stats.dropped + outstanding + s.stats.merged =
    s.stats.instructionEvents + s.stats.logEvents + s.stats.errors + s.stats.accounts +
      s.stats.blocks
  /-- Merged events were instruction events. -/
  merged_le_instructionEvents : s.stats.merged ≤ s.stats.instructionEvents
  /-- Merged events have a log event each. -/
  merged_le_logEvents : s.stats.merged ≤ s.stats.logEvents
  /-- Every transaction was timed. -/
  transactions_eq : s.stats.transactions = s.decodeTimes.total

/-- The counters of a new session agree. -/
theorem balanced_start (config : Config) (sink : Sink) : Balanced config (start config sink) 0 where
  config_eq := rfl
  conserved := rfl
  merged_le_instructionEvents := Nat.le_refl 0
  merged_le_logEvents := Nat.le_refl 0
  transactions_eq := rfl

/-- Only the settings, the counters and the decoding times matter. -/
theorem Balanced.congr {s' : Session} (h : Balanced config s n) (hconfig : s'.config = s.config)
    (hstats : s'.stats = s.stats) (htimes : s'.decodeTimes = s.decodeTimes) :
    Balanced config s' n where
  config_eq := hconfig.trans h.config_eq
  conserved := hstats ▸ h.conserved
  merged_le_instructionEvents := hstats ▸ h.merged_le_instructionEvents
  merged_le_logEvents := hstats ▸ h.merged_le_logEvents
  transactions_eq := by rw [hstats, htimes, h.transactions_eq]

/-! ## Handing on -/

/-- A delivered event is settled. -/
theorem Balanced.countDelivered (h : Balanced config s (n + 1)) :
    Balanced config s.countDelivered n where
  config_eq := h.config_eq
  conserved := by
    have hbefore := h.conserved
    simp only [Session.countDelivered]
    omega
  merged_le_instructionEvents := h.merged_le_instructionEvents
  merged_le_logEvents := h.merged_le_logEvents
  transactions_eq := h.transactions_eq

/-- A refused event is settled, too. -/
theorem Balanced.countDropped (h : Balanced config s (n + 1)) :
    Balanced config s.countDropped n where
  config_eq := h.config_eq
  conserved := by
    have hbefore := h.conserved
    simp only [Session.countDropped]
    omega
  merged_le_instructionEvents := h.merged_le_instructionEvents
  merged_le_logEvents := h.merged_le_logEvents
  transactions_eq := h.transactions_eq

/-- Handing an event on settles it, unless a callback fails on it. -/
theorem Balanced.handsOn {callback : Event → Bool} {now : Int64} {e : Event} {r : Handover}
    (h : Balanced config s (n + 1)) (hr : HandsOn now callback s e r) :
    Balanced config r.session (if r.finished then n else n + 1) := by
  cases hr with
  | queued hsink hroom => exact Balanced.countDelivered (h.congr rfl rfl rfl)
  | refused hsink hfull => exact Balanced.countDropped (h.congr rfl rfl rfl)
  | seen hsink hreturn => exact h.countDelivered
  | failed hsink hfail => exact h
  | discarded hsink => exact h.countDelivered

/-- The events of a row that a callback which fails keeps from being handed on: the first one that
it fails on, as it would see it, and all behind. -/
def abandoned (now : Int64) (callback : Nat → Event → Bool) : List Event → List Event
  | [] => []
  | e :: es =>
    if callback 0 { e with metadata := { e.metadata with handledAt := now } } then
      abandoned now (fun i => callback (i + 1)) es
    else e :: es

/-- How many events of a row are abandoned on a session; only a callback can fail. -/
def abandonedOf (now : Int64) (callback : Nat → Event → Bool) (s : Session) (es : List Event) :
    Nat :=
  if s.sink = .callback then (abandoned now callback es).length else 0

/-- Of no events none is abandoned. -/
theorem abandonedOf_nil (now : Int64) (callback : Nat → Event → Bool) (s : Session) :
    s.abandonedOf now callback [] = 0 :=
  ite_self _

/-- Of a row in which the first event ends the call, all events are abandoned. -/
theorem abandonedOf_cons_of_not_finished {now : Int64} {callback : Nat → Event → Bool} {e : Event}
    {es : List Event} (h : (s.deliver now (callback 0) e).finished ≠ true) :
    s.abandonedOf now callback (e :: es) = es.length + 1 := by
  rw [Ne, (handsOn_deliver now (callback 0) s e).finished_iff, Classical.not_imp] at h
  rw [abandonedOf, if_pos h.1, abandoned]
  have hfail : ¬callback 0 { e with metadata := { e.metadata with handledAt := now } } = true := h.2
  rw [if_neg hfail, List.length_cons]

/-- Where the first event does not end the call, those that are abandoned are among the others. -/
theorem abandonedOf_cons_of_finished {now : Int64} {callback : Nat → Event → Bool} {e : Event}
    {es : List Event} (h : (s.deliver now (callback 0) e).finished = true) :
    s.abandonedOf now callback (e :: es) =
      (s.deliver now (callback 0) e).session.abandonedOf now (fun i => callback (i + 1)) es := by
  have hfirst := handsOn_deliver now (callback 0) s e
  rw [hfirst.finished_iff] at h
  rw [abandonedOf, abandonedOf, hfirst.sink_eq]
  by_cases hsink : s.sink = .callback
  · have hreturn : callback 0 { e with metadata := { e.metadata with handledAt := now } } = true :=
      h hsink
    rw [if_pos hsink, if_pos hsink, abandoned, if_pos hreturn]
  · rw [if_neg hsink, if_neg hsink]

/-- Handing events on settles all but those that are abandoned. -/
theorem Balanced.deliverAll {es : List Event} (h : Balanced config s (n + es.length))
    (now : Int64) (callback : Nat → Event → Bool) :
    Balanced config (s.deliverAll now callback es).session
      (n + s.abandonedOf now callback es) := by
  induction es generalizing s callback with
  | nil =>
    rw [abandonedOf_nil]
    exact h
  | cons e es ih =>
    have hfirst := Balanced.handsOn (n := n + es.length) h (handsOn_deliver now (callback 0) s e)
    rw [Session.deliverAll]
    by_cases hfinished : (s.deliver now (callback 0) e).finished = true
    · rw [if_pos hfinished] at hfirst
      rw [abandonedOf_cons_of_finished hfinished, if_pos hfinished]
      exact ih hfirst _
    · rw [if_neg hfinished] at hfirst
      rw [abandonedOf_cons_of_not_finished hfinished, if_neg hfinished]
      exact hfirst

/-- Every recorded sample is counted, whether or not the window keeps it. -/
theorem total_record (window : SampleWindow) (sample : Nat) :
    (window.record sample).total = window.total + 1 := by
  rw [SampleWindow.record]
  by_cases hroom : window.samples.size < window.capacity
  · rw [if_pos hroom]
  · rw [if_neg hroom]

/-- The events of a decoded transaction are outstanding. -/
theorem Balanced.decode (h : Balanced config s n) (elapsed : Nat) (tx : Transaction) :
    Balanced config (s.decode elapsed tx).2 (n + (s.decode elapsed tx).1.length) where
  config_eq := h.config_eq
  conserved := by
    have hbefore := h.conserved
    have hlength := tx.length_events s.config
    rw [tx.length_requests, tx.length_kept, ← tx.merged_eq] at hlength
    simp only [Session.decode]
    omega
  merged_le_instructionEvents := by
    have hbefore := h.merged_le_instructionEvents
    have hpass := tx.absorbed_le_instructionEvents s.config
    rw [← tx.merged_eq] at hpass
    exact Nat.add_le_add hbefore hpass
  merged_le_logEvents := by
    have hbefore := h.merged_le_logEvents
    have hpass := tx.absorbed_le_logEvents s.config
    rw [← tx.merged_eq] at hpass
    exact Nat.add_le_add hbefore hpass
  transactions_eq := by
    rw [Session.decode, total_record, ← h.transactions_eq]

/-- A single event is handed on like a row of one. -/
theorem deliverAll_singleton (s : Session) (now : Int64) (callback : Event → Bool) (e : Event) :
    s.deliverAll now (fun _ => callback) [e] = s.deliver now callback e := by
  have hfirst := handsOn_deliver now callback s e
  rw [Session.deliverAll]
  generalize s.deliver now callback e = r at hfirst ⊢
  cases hfirst <;> rfl

/-- The event of an account update is settled, unless a callback fails on it. -/
theorem Balanced.ingestAccount (h : Balanced config s n) (now : Int64) (callback : Event → Bool)
    (update : AccountWrite) :
    Balanced config (s.ingestAccountWith now callback update).session
      (n + s.abandonedOf now (fun _ => callback) (snapshot? s.config update).toList) := by
  rw [Session.ingestAccountWith]
  cases snapshot? s.config update with
  | none =>
    rw [Option.toList_none, abandonedOf_nil]
    exact h
  | some e =>
    have hcounted : Balanced config
        { s with stats := { s.stats with accounts := s.stats.accounts + 1 } } (n + [e].length) :=
      { h with
        conserved := by
          have hbefore := h.conserved
          simp only [List.length_singleton]
          omega }
    have hsettled := hcounted.deliverAll now fun _ => callback
    rw [deliverAll_singleton] at hsettled
    exact hsettled

/-- The event of a block is settled, unless a callback fails on it. -/
theorem Balanced.ingestBlock (h : Balanced config s n) (now : Int64) (callback : Event → Bool)
    (info : Block) :
    Balanced config (s.ingestBlockWith now callback info).session
      (n + s.abandonedOf now (fun _ => callback) [blockEvent info]) := by
  have hcounted : Balanced config
      { s with stats := { s.stats with blocks := s.stats.blocks + 1 } }
        (n + [blockEvent info].length) :=
    { h with
      conserved := by
        have hbefore := h.conserved
        simp only [List.length_singleton]
        omega }
  have hsettled := hcounted.deliverAll now fun _ => callback
  rw [deliverAll_singleton] at hsettled
  exact hsettled

/-! ## Taking events off the queue -/

/-- The consumer leaves the counters of the session as they are. -/
theorem Balanced.handleUpTo (h : Balanced config s n) (now : Int64) (handler : Nat → Event → Bool)
    (count : Nat) : Balanced config (Session.handleUpTo now handler count s).2 n := by
  induction count generalizing s with
  | zero => exact h
  | succ count ih =>
    have hpop : Balanced config s.pop.2 n := h.congr rfl rfl rfl
    rw [Session.handleUpTo]
    rcases hvalue : s.pop with ⟨_ | e, s'⟩
    · rw [hvalue] at hpop
      exact hpop
    · rw [hvalue] at hpop
      exact ih (hpop.congr rfl rfl rfl)

/-! ## Histories -/

/-- How many events a command returns instead of handing them on. -/
def returnedBy (elapsed : Nat) (s : Session) : Command → Nat
  | .ingest _ _ => 0
  | .decode tx => (s.decode elapsed tx).1.length
  | .account _ _ => 0
  | .block _ _ => 0
  | .pop => 0
  | .drain _ => 0

/-- How many events commands return instead of handing them on, carried out one after the other. -/
def returned (s : Session) : List (Int64 × Nat × Command) → Nat
  | [] => 0
  | (now, elapsed, command) :: more =>
    s.returnedBy elapsed command + (s.perform now elapsed command).2.returned more

/-- What the callback does in a command; in one that hands nothing on it has nothing to do. -/
def callbackOf : Command → Nat → Event → Bool
  | .ingest _ callback => callback
  | .decode _ => fun _ _ => true
  | .account _ callback => fun _ => callback
  | .block _ callback => fun _ => callback
  | .pop => fun _ _ => true
  | .drain _ => fun _ _ => true

/-- How many events a command abandons. -/
def abandonedBy (now : Int64) (s : Session) (command : Command) : Nat :=
  s.abandonedOf now (callbackOf command) (command.produced s.config)

/-- How many events commands abandon, carried out one after the other. -/
def abandonedIn (s : Session) : List (Int64 × Nat × Command) → Nat
  | [] => 0
  | (now, elapsed, command) :: more =>
    s.abandonedBy now command + (s.perform now elapsed command).2.abandonedIn more

/-- A command leaves outstanding what it returns and what it abandons. -/
theorem Balanced.perform (h : Balanced config s n) (now : Int64) (elapsed : Nat)
    (command : Command) :
    Balanced config (s.perform now elapsed command).2
      (n + (s.returnedBy elapsed command + s.abandonedBy now command)) := by
  cases command with
  | ingest tx callback =>
    rw [returnedBy, Nat.zero_add]
    exact (h.decode elapsed tx).deliverAll now callback
  | decode tx =>
    rw [abandonedBy, Command.produced, abandonedOf_nil]
    exact h.decode elapsed tx
  | account update callback =>
    rw [returnedBy, Nat.zero_add]
    exact h.ingestAccount now callback update
  | block info callback =>
    rw [returnedBy, Nat.zero_add]
    exact h.ingestBlock now callback info
  | pop =>
    rw [abandonedBy, Command.produced, abandonedOf_nil]
    exact h.congr rfl rfl rfl
  | drain handler =>
    rw [abandonedBy, Command.produced, abandonedOf_nil]
    exact h.handleUpTo now handler _

/-- A history leaves outstanding what its commands return and what they abandon. -/
theorem Balanced.run (h : Balanced config s n) (history : List (Int64 × Nat × Command)) :
    Balanced config (s.run history).2 (n + (s.returned history + s.abandonedIn history)) := by
  -- What one command leaves outstanding stays so while the others are carried out.
  induction history generalizing s n with
  | nil => exact h
  | cons step history ih =>
    obtain ⟨now, elapsed, command⟩ := step
    have hrest := ih (h.perform now elapsed command)
    have htotal : n + (s.returnedBy elapsed command + s.abandonedBy now command) +
        ((s.perform now elapsed command).2.returned history +
          (s.perform now elapsed command).2.abandonedIn history) =
        n + (s.returned ((now, elapsed, command) :: history) +
          s.abandonedIn ((now, elapsed, command) :: history)) := by
      rw [returned, abandonedIn]
      omega
    rw [htotal] at hrest
    exact hrest

/-! ## Calls that come to their end -/

end DexFeed.Session
