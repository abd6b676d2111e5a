import DexFeed.Session.History

/-!
# What handing an event on can do

An event is handed on in one of five ways: the queue takes it or refuses it, a callback comes back
from it or fails on it, or nobody is told. `HandsOn` lists them, each with what is answered and the
session behind, and everything else about a single event is read off these five cases. Only a
callback that fails ends a call early. What every single event leaves alone is left alone by a call
with many events, and so a session never changes where it hands its events.
-/

namespace DexFeed.Session

variable {now : Int64} {callback : Event → Bool} {s : Session} {e : Event} {r : Handover}

/-- What can come of handing an event on. -/
inductive HandsOn (now : Int64) (callback : Event → Bool) (s : Session) (e : Event) :
    Handover → Prop
  /-- The queue takes the event. -/
  | queued (hsink : s.sink = .queue) (hroom : (s.queue.push e).1 = true) :
      HandsOn now callback s e
        ⟨1, [], true, { s with queue := (s.queue.push e).2 }.countDelivered⟩
  /-- The queue refuses the event. -/
  | refused (hsink : s.sink = .queue) (hfull : (s.queue.push e).1 = false) :
      HandsOn now callback s e ⟨0, [], true, { s with queue := (s.queue.push e).2 }.countDropped⟩
  /-- The callback comes back from the event. -/
  | seen (hsink : s.sink = .callback) (hreturn : callback (e.handled now) = true) :
      HandsOn now callback s e ⟨1, [e.handled now], true, s.countDelivered⟩
  /-- The callback fails on the event. -/
  | failed (hsink : s.sink = .callback) (hfail : callback (e.handled now) = false) :
      HandsOn now callback s e ⟨0, [e.handled now], false, s⟩
  /-- Nobody is told of the event. -/
  | discarded (hsink : s.sink = .discard) :
      HandsOn now callback s e ⟨1, [], true, s.countDelivered⟩

/-- An event is handed on in one of these ways. -/
theorem handsOn_deliver (now : Int64) (callback : Event → Bool) (s : Session) (e : Event) :
    HandsOn now callback s e (s.deliver now callback e) := by
  cases hsink : s.sink with
  | queue =>
    cases hpushed : (s.queue.push e).1 with
    | true =>
      have h : HandsOn now callback s e _ := .queued hsink hpushed
      simpa only [deliver, hsink, hpushed, if_true] using h
    | false =>
      have h : HandsOn now callback s e _ := .refused hsink hpushed
      simpa only [deliver, hsink, hpushed, Bool.false_eq_true, if_false] using h
  | callback =>
    cases hcallback : callback (e.handled now) with
    | true =>
      have h : HandsOn now callback s e _ := .seen hsink hcallback
      simpa only [deliver, hsink, hcallback, if_true] using h
    | false =>
      have h : HandsOn now callback s e _ := .failed hsink hcallback
      simpa only [deliver, hsink, hcallback, Bool.false_eq_true, if_false] using h
  | discard =>
    have h : HandsOn now callback s e _ := .discarded hsink
    simpa only [deliver, hsink] using h

namespace HandsOn

/-- Events go where they went before. -/
theorem sink_eq (h : HandsOn now callback s e r) : r.session.sink = s.sink := by
  cases h <;> rfl

/-- Handing an event on merges none. -/
theorem merged_eq (h : HandsOn now callback s e r) :
    r.session.stats.merged = s.stats.merged := by
  cases h <;> rfl

/-- Only a callback that fails ends the call early. -/
theorem finished_iff (h : HandsOn now callback s e r) :
    r.finished = true ↔ (s.sink = .callback → callback (e.handled now) = true) := by
  cases h with
  | queued hsink hroom => simp [hsink]
  | refused hsink hfull => simp [hsink]
  | seen hsink hreturn => simp [hreturn]
  | failed hsink hfail => simp [hsink, hfail]
  | discarded hsink => simp [hsink]

end HandsOn

/-! ## Many events -/

/-- What handing on one event preserves, handing on many preserves. -/
theorem deliverAll_induction {motive : Session → Prop} (now : Int64)
    (hstep : ∀ (callback : Event → Bool) (s : Session) (e : Event), motive s →
      motive (s.deliver now callback e).session)
    {s : Session} (h : motive s) (callback : Nat → Event → Bool) (es : List Event) :
    motive (s.deliverAll now callback es).session := by
  induction es generalizing s callback with
  | nil => exact h
  | cons e es ih =>
    have hfirst := hstep (callback 0) s e h
    rw [deliverAll]
    by_cases hfinished : (s.deliver now (callback 0) e).finished = true
    · rw [if_pos hfinished]
      exact ih hfirst _
    · rw [if_neg hfinished]
      exact hfirst

/-- Handing events on does not change where they go. -/
theorem sink_deliverAll (s : Session) (now : Int64) (callback : Nat → Event → Bool)
    (es : List Event) : (s.deliverAll now callback es).session.sink = s.sink :=
  deliverAll_induction (motive := fun s' => s'.sink = s.sink) now
    (fun callback s' e h => (handsOn_deliver now callback s' e).sink_eq.trans h) rfl callback es

/-- The consumer does not change where events go. -/
theorem sink_handleUpTo (s : Session) (now : Int64) (handler : Nat → Event → Bool) (count : Nat) :
    (handleUpTo now handler count s).2.sink = s.sink := by
  induction count generalizing s with
  | zero => rfl
  | succ count ih =>
    have hpop : s.pop.2.sink = s.sink := rfl
    rw [handleUpTo]
    rcases hvalue : s.pop with ⟨_ | e, s'⟩
    · rw [hvalue] at hpop
      exact hpop
    · rw [hvalue] at hpop
      exact (ih _).trans hpop

/-- No command changes where events go. -/
theorem sink_perform (s : Session) (now : Int64) (elapsed : Nat) (command : Command) :
    (s.perform now elapsed command).2.sink = s.sink := by
  cases command with
  | ingest tx callback => exact sink_deliverAll _ now callback _
  | decode tx => rfl
  | account update callback =>
    rw [perform, ingestAccountWith]
    cases snapshot? s.config update with
    | none => rfl
    | some e => exact (handsOn_deliver now callback _ e).sink_eq
  | block info callback => exact (handsOn_deliver now callback _ (blockEvent info)).sink_eq
  | pop => rfl
  | drain handler => exact s.sink_handleUpTo now handler _

/-- A session never changes where it hands its events. -/
theorem sink_run (s : Session) (history : List (Int64 × Nat × Command)) :
    (s.run history).2.sink = s.sink := by
  induction history generalizing s with
  | nil => rfl
  | cons step history ih =>
    obtain ⟨now, elapsed, command⟩ := step
    exact (ih _).trans (s.sink_perform now elapsed command)

end DexFeed.Session
