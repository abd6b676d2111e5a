import DexFeed.Proofs.Payload.Snapshots
import DexFeed.Proofs.Program
import DexFeed.Proofs.Session.Counters
import DexFeed.Proofs.Session.Delivery

/-!
# Account updates of a session

Whatever a session has done before, an account update makes one event or none: its owner must be the
program of an enabled protocol, and the data must be a snapshot of that protocol. The event says
what the data state and takes the slot, the owner and the time of receipt from the update. It is
handed on exactly when the sink accepts it: a queue has to have room, a callback has to come back
from it. A callback that fails has seen the event all the same; of an update without an event
neither callback nor queue see anything.
-/

namespace DexFeed

/-- What the event of an account update says of when and where it was seen. -/
def AccountWrite.metadata (update : AccountWrite) : Metadata :=
  { Metadata.empty with
    slot := update.slot
    programId := update.owner
    receivedAt := update.receivedAt }

namespace Session

variable {config : Config} {s : Session} {update : AccountWrite} {e : Event} {now : Int64}
  {callback : Event → Bool}

/-! ## Handing one event on -/

/-- Whether a session accepts an event: a callback has to come back from it, a queue has to have
room. -/
structure Accepts (now : Int64) (callback : Event → Bool) (s : Session) (e : Event) : Prop where
  /-- The callback does not fail on the event with the time of its handling. -/
  returns : s.sink = .callback →
    callback { e with metadata := { e.metadata with handledAt := now } } = true
  /-- The queue is not full. -/
  room : s.sink = .queue → s.queue.toList.length < s.queue.capacity.toNat

/-- A session accepts an event exactly when handing it on counts it. -/
theorem HandsOn.accepts_iff {r : Handover} (hr : HandsOn now callback s e r)
    (sound : s.sink = .queue → s.queue.Sound) :
    Accepts now callback s e ↔ r.accepted = 1 := by
  cases hr with
  | queued hsink hroom =>
    have hnot : s.sink ≠ .callback := by simp [hsink]
    have hwithin := ((sound hsink).push_fst_iff e).1 hroom
    exact iff_of_true ⟨fun hcallback => absurd hcallback hnot, fun _ => hwithin⟩ rfl
  | refused hsink hfull =>
    refine iff_of_false (fun h => ?_) Nat.zero_ne_one
    have htaken := ((sound hsink).push_fst_iff e).2 (h.room hsink)
    exact Bool.false_ne_true (hfull.symm.trans htaken)
  | seen hsink hreturn =>
    have hnot : s.sink ≠ .queue := by simp [hsink]
    exact iff_of_true ⟨fun _ => hreturn, fun hqueue => absurd hqueue hnot⟩ rfl
  | failed hsink hfail =>
    refine iff_of_false (fun h => ?_) Nat.zero_ne_one
    exact Bool.false_ne_true (hfail.symm.trans (h.returns hsink))
  | discarded hsink =>
    have hcallback : s.sink ≠ .callback := by simp [hsink]
    have hqueue : s.sink ≠ .queue := by simp [hsink]
    exact iff_of_true ⟨fun h => absurd h hcallback, fun h => absurd h hqueue⟩ rfl

/-- What becomes of an event on a session that accepts it: a callback sees it at once, a queue keeps
it behind all that wait. -/
theorem Accepts.deliver (h : Accepts now callback s e) (sound : s.sink = .queue → s.queue.Sound) :
    let handed := s.deliver now callback e
    handed.accepted = 1 ∧ handed.finished = true ∧
      handed.seen = (if s.sink = .callback then
        [{ e with metadata := { e.metadata with handledAt := now } }] else []) ∧
      handed.session.queue.toList = s.queue.toList ++ if s.sink = .queue then [e] else [] := by
  intro handed
  have hhanded : HandsOn now callback s e handed := handsOn_deliver now callback s e
  have haccepted : handed.accepted = 1 := (hhanded.accepts_iff sound).1 h
  generalize handed = r at hhanded haccepted ⊢
  refine ⟨haccepted, ?_⟩
  cases hhanded with
  | queued hsink hroom =>
    obtain ⟨-, hwaiting, -⟩ := (sound hsink).push_of_room (h.room hsink) e
    simp only [hsink, reduceCtorEq, if_false, if_true]
    exact ⟨trivial, trivial, hwaiting⟩
  | refused hsink hfull => exact absurd haccepted Nat.zero_ne_one
  | seen hsink hreturn =>
    simp only [hsink, reduceCtorEq, if_false, if_true, List.append_nil]
    exact ⟨trivial, rfl, rfl⟩
  | failed hsink hfail => exact absurd haccepted Nat.zero_ne_one
  | discarded hsink =>
    simp only [hsink, reduceCtorEq, if_false, List.append_nil]
    exact ⟨trivial, trivial, rfl⟩

/-- What becomes of an event on a session that does not accept it: a callback has seen it and ends
the call, a queue is left as it was. -/
theorem deliver_of_not_accepts (h : ¬Accepts now callback s e)
    (sound : s.sink = .queue → s.queue.Sound) :
    let handed := s.deliver now callback e
    handed.accepted = 0 ∧ (handed.finished = false ↔ s.sink = .callback) ∧
      handed.seen = (if s.sink = .callback then
        [{ e with metadata := { e.metadata with handledAt := now } }] else []) ∧
      handed.session.queue.toList = s.queue.toList := by
  intro handed
  have hhanded : HandsOn now callback s e handed := handsOn_deliver now callback s e
  have hrefused : handed.accepted ≠ 1 := fun haccepted => h ((hhanded.accepts_iff sound).2 haccepted)
  generalize handed = r at hhanded hrefused ⊢
  cases hhanded with
  | queued hsink hroom => exact absurd rfl hrefused
  | refused hsink hfull =>
    have hnot : ¬s.queue.toList.length < s.queue.capacity.toNat := by
      rw [← (sound hsink).push_fst_iff e, hfull]
      exact Bool.false_ne_true
    obtain ⟨-, hwaiting, -⟩ := (sound hsink).push_of_full hnot e
    simp only [hsink, reduceCtorEq, if_false]
    exact ⟨trivial, by simp, trivial, hwaiting⟩
  | seen hsink hreturn => exact absurd rfl hrefused
  | failed hsink hfail =>
    simp only [hsink, if_true]
    exact ⟨trivial, trivial, rfl, trivial⟩
  | discarded hsink => exact absurd rfl hrefused

/-! ## Account updates -/

/-- An account update whose owner is the program of an enabled protocol and whose data are a
snapshot of that protocol, with the event that comes of it. -/
def Readable (config : Config) (update : AccountWrite) (e : Event) : Prop :=
  ∃ p : Protocol, p.programId = update.owner ∧ config.enabled.contains p = true ∧
    Payload.snapshot? p update.data update.account update.metadata = some e

/-- An update is read as an event exactly when it is readable as that event. -/
theorem snapshot?_eq_some_iff : snapshot? config update = some e ↔ Readable config update e := by
  rw [snapshot?, Option.bind_eq_bind, Option.bind_eq_some_iff]
  refine exists_congr fun p => ?_
  rw [Protocol.ofKey?_eq_some_iff]
  refine and_congr_right fun _ => ?_
  by_cases henabled : config.enabled.contains p = true
  · rw [if_pos henabled]
    exact (and_iff_right henabled).symm
  · rw [if_neg henabled]
    exact iff_of_false (Option.some_ne_none e).symm fun h => henabled h.1

/-- The session with one more snapshot counted. -/
def countAccount (s : Session) : Session :=
  { s with stats := { s.stats with accounts := s.stats.accounts + 1 } }

/-- The event of a readable update is handed on once the snapshot is counted. -/
theorem ingestAccount_of_readable (h : Readable s.config update e) (now : Int64)
    (callback : Event → Bool) :
    s.ingestAccountWith now callback update = s.countAccount.deliver now callback e := by
  rw [ingestAccountWith, snapshot?_eq_some_iff.2 h]
  rfl

/-- Any other update leaves the session as it is. -/
theorem ingestAccount_of_not_readable (h : ∀ e, ¬Readable s.config update e) (now : Int64)
    (callback : Event → Bool) : s.ingestAccountWith now callback update = ⟨0, [], true, s⟩ := by
  have hnone : snapshot? s.config update = none :=
    Option.eq_none_iff_forall_ne_some.2 fun e he => h e (snapshot?_eq_some_iff.1 he)
  rw [ingestAccountWith, hnone]

/-- The queue of a session that hands its events to it is in order, and its room is that of the
settings. -/
theorem queue_run (config : Config) (sink : Sink) (history : List (Int64 × Nat × Command))
    (hsink : ((start config sink).run history).2.sink = .queue) :
    ((start config sink).run history).2.queue.Sound ∧
      ((start config sink).run history).2.queue.capacity =
        Capacity.roundUp config.queueCapacity := by
  obtain rfl : sink = .queue := (sink_run (start config sink) history).symm.trans hsink
  have hrun := (queueing_start config).carries_run history
  exact ⟨hrun.queueing.sound, hrun.capacity_eq.trans (UInt64.sub_add_cancel _ _)⟩

/-- After a history, acceptance depends on the sink and on the room that the settings give. -/
theorem accepts_run (config : Config) (sink : Sink) (history : List (Int64 × Nat × Command))
    (now : Int64) (callback : Event → Bool) (e : Event) :
    Accepts now callback ((start config sink).run history).2.countAccount e ↔
      (sink = .callback →
        callback { e with metadata := { e.metadata with handledAt := now } } = true) ∧
      (sink = .queue → ((start config sink).run history).2.queue.toList.length <
        (Capacity.roundUp config.queueCapacity).toNat) := by
  have hsink : ((start config sink).run history).2.sink = sink := sink_run _ history
  have hcapacity := queue_run config sink history
  constructor
  · intro h
    refine ⟨fun hcallback => h.returns (hsink.trans hcallback), fun hqueue => ?_⟩
    rw [← (hcapacity (hsink.trans hqueue)).2]
    exact h.room (hsink.trans hqueue)
  · rintro ⟨hreturns, hroom⟩
    refine ⟨fun hcallback => hreturns (hsink.symm.trans hcallback), fun hqueue => ?_⟩
    have hrun : ((start config sink).run history).2.queue.capacity = _ := (hcapacity hqueue).2
    exact lt_of_lt_of_eq (hroom (hsink.symm.trans hqueue)) (congrArg UInt64.toNat hrun.symm)

/-- An account snapshot is understood exactly when the data are a tag of the program and behind it
all that a state of the tagged kind has to state, and its event then says what stands there. A
session, whatever it has done before, hands this event on exactly when the owner of the account is
the program of an enabled protocol and the sink accepts it: a queue with room keeps it as the last
of all, and a callback sees it with the time of its handling and otherwise unchanged and comes back
from it. A callback that fails on it has seen the same event. Any other account update leaves the
session as it was, and nothing is seen of it. -/
theorem ingestAccount_hands_on (config : Config) (sink : Sink)
    (history : List (Int64 × Nat × Command)) :
    (∀ p data account m,
      ((Payload.snapshot? p data account m).isSome ↔
        ∃ kind : SnapshotKind, kind.protocol = p ∧ kind.tag.bytes <+: data ∧
          8 + Field.span kind.stated ≤ data.length) ∧
      ∀ e, Payload.snapshot? p data account m = some e →
        ∃ kind : SnapshotKind, kind.protocol = p ∧ kind.tag.bytes <+: data ∧
          kind.Conveys (data.drop 8) account m e) ∧
    let s := ((start config sink).run history).2
    ∀ (now : Int64) (callback : Event → Bool) update,
      let stamped (e : Event) : Event :=
        { e with metadata := { e.metadata with handledAt := now } }
      let accepts (e : Event) : Prop := (sink = .callback → callback (stamped e) = true) ∧
        (sink = .queue →
          s.queue.toList.length < (Capacity.roundUp config.queueCapacity).toNat)
      let handed := s.ingestAccountWith now callback update
      (∀ e, Readable config update e →
        handed.seen = (if sink = .callback then [stamped e] else []) ∧
        (accepts e → handed.accepted = 1 ∧ handed.finished = true ∧
          handed.session.queue.toList =
            s.queue.toList ++ if sink = .queue then [e] else []) ∧
        (¬accepts e → handed.accepted = 0 ∧ (handed.finished = false ↔ sink = .callback) ∧
          handed.session.queue.toList = s.queue.toList)) ∧
      ((∀ e, ¬Readable config update e) → handed = ⟨0, [], true, s⟩) := by
  refine ⟨fun p data account m => ⟨Payload.isSome_snapshot?_iff, fun e he => ?_⟩, ?_⟩
  · obtain ⟨kind, hprotocol, htag, -, hconveys⟩ := Payload.conveys_of_snapshot? he
    exact ⟨kind, hprotocol, htag, hconveys⟩
  intro s now callback update stamped accepts handed
  have hconfig : s.config = config := ((balanced_start config sink).run history).config_eq
  have hsink : s.countAccount.sink = sink := sink_run (start config sink) history
  -- The room of the queue is that of the settings, whatever the history has been.
  have haccepts : ∀ e, Accepts now callback s.countAccount e ↔ accepts e :=
    accepts_run config sink history now callback
  have hsound : s.countAccount.sink = .queue → s.countAccount.queue.Sound :=
    fun hqueue => (queue_run config sink history hqueue).1
  refine ⟨fun e he => ?_, fun hnone => ?_⟩
  · have hhanded : handed = s.countAccount.deliver now callback e :=
      ingestAccount_of_readable (hconfig.symm ▸ he) now callback
    rw [hhanded]
    by_cases h : Accepts now callback s.countAccount e
    · have hdelivered := h.deliver hsound
      simp only [hsink] at hdelivered
      obtain ⟨haccepted, hfinished, hseen, hqueue⟩ := hdelivered
      exact ⟨hseen, fun _ => ⟨haccepted, hfinished, hqueue⟩,
        fun hnot => absurd ((haccepts e).1 h) hnot⟩
    · have hdelivered := deliver_of_not_accepts h hsound
      simp only [hsink] at hdelivered
      obtain ⟨haccepted, hfinished, hseen, hqueue⟩ := hdelivered
      exact ⟨hseen, fun haccept => absurd ((haccepts e).2 haccept) h,
        fun _ => ⟨haccepted, hfinished, hqueue⟩⟩
  · exact ingestAccount_of_not_readable (hconfig.symm ▸ hnone) now callback

/-- The settings of the pump curves as an account holds them, with zeros for all values. -/
def blankGlobal : AccountWrite where
  account := ⟨List.replicate 32 7, rfl⟩
  owner := Protocol.pumpFun.programId
  data := SnapshotKind.pumpFunGlobal.tag.bytes ++ List.replicate 105 0
  lamports := 0
  slot := 9
  receivedAt := 3

/-- A callback sees these settings at once, with the key of their account, the slot of the update
and the time of handling, and they are accepted if it comes back from them. -/
theorem ingestAccount_hands_on_global :
    ∃ e, Readable Config.standard blankGlobal e ∧
      (∀ comesBack : Bool,
        let handed :=
          (start Config.standard .callback).ingestAccountWith 5 (fun _ => comesBack) blankGlobal
        handed.seen = [{ e with metadata := { e.metadata with handledAt := 5 } }] ∧
          handed.accepted = if comesBack then 1 else 0) ∧
      e.get .pubkey = blankGlobal.account ∧ e.metadata.slot = 9 := by
  obtain ⟨hunderstood, hhanded⟩ := ingestAccount_hands_on Config.standard .callback []
  obtain ⟨hiff, hconveys⟩ :=
    hunderstood .pumpFun blankGlobal.data blankGlobal.account blankGlobal.metadata
  obtain ⟨e, he⟩ := Option.isSome_iff_exists.1
    (hiff.2 ⟨.pumpFunGlobal, rfl, List.prefix_append _ _, by decide⟩)
  have hreadable : Readable Config.standard blankGlobal e :=
    ⟨.pumpFun, rfl, ProtocolSet.contains_full _, he⟩
  obtain ⟨kind, -, -, hevent⟩ := hconveys e he
  refine ⟨e, hreadable, fun comesBack => ?_, hevent.pubkey_eq, by rw [hevent.metadata_eq]; rfl⟩
  obtain ⟨hseen, haccepted, hfailed⟩ := (hhanded 5 (fun _ => comesBack) blankGlobal).1 e hreadable
  refine ⟨hseen, ?_⟩
  cases comesBack with
  | true => exact (haccepted ⟨fun _ => rfl, fun h => absurd h (by decide)⟩).1
  | false => exact (hfailed fun h => Bool.false_ne_true (h.1 rfl)).1

end Session

end DexFeed
