import DexFeed.Proofs.Merge.Outcome
import DexFeed.Proofs.Pass.EarlyStop
import DexFeed.Proofs.Program

/-!
# Where events come from

Every event of a transaction says whose doing it is. It repeats what the transaction says of itself,
and unless it is an error its variant belongs to an enabled protocol whose program it names. The
program is named in three ways: an instruction and a program's report to itself take it from the
keys, a text log takes it from the table of protocols, and a merged event takes it from either side.
They agree, because a key names a protocol only if it is the id of its program.
-/

namespace DexFeed

/-! ## Block times -/

/-- A block time in milliseconds is the exact one, or the end of the range that it lies beyond. -/
theorem toInt_milliseconds (seconds : Int64) :
    (milliseconds (some seconds)).toInt =
      max (-9223372036854775808) (min 9223372036854775807 (seconds.toInt * 1000)) := by
  have hlarge : (9223372036854775 : Int64).toInt = 9223372036854775 := by decide
  have hsmall : (-9223372036854775 : Int64).toInt = -9223372036854775 := by decide
  rw [milliseconds]
  by_cases hover : 9223372036854775 < seconds
  · rw [if_pos hover]
    have hint := Int64.lt_iff_toInt_lt.1 hover
    rw [hlarge] at hint
    have hmax : Int64.maxValue.toInt = 9223372036854775807 := by decide
    omega
  · rw [if_neg hover]
    have habove : ¬9223372036854775 < seconds.toInt := by
      rw [← hlarge, ← Int64.lt_iff_toInt_lt]
      exact hover
    by_cases hunder : seconds < -9223372036854775
    · rw [if_pos hunder]
      have hint := Int64.lt_iff_toInt_lt.1 hunder
      rw [hsmall] at hint
      have hmin : Int64.minValue.toInt = -9223372036854775808 := by decide
      omega
    · rw [if_neg hunder]
      have hbelow : ¬seconds.toInt < -9223372036854775 := by
        rw [← hsmall, ← Int64.lt_iff_toInt_lt]
        exact hunder
      have hthousand : (1000 : Int64).toInt = 1000 := by decide
      have hexact : (seconds.toInt * 1000).bmod (2 ^ 64) = seconds.toInt * 1000 := by
        apply Int.bmod_eq_of_le <;> omega
      rw [Int64.toInt_mul, hthousand, hexact]
      omega

/-! ## What is claimed of one event -/

/-- Metadata that repeat what a transaction says of itself. -/
structure Metadata.Repeats (m : Metadata) (tx : Transaction) : Prop where
  /-- The signature is the transaction's. -/
  signature_eq : m.signature = tx.signature
  /-- The slot is the transaction's. -/
  slot_eq : m.slot = tx.slot
  /-- The block time is the transaction's. -/
  blockTime_eq : m.blockTime = tx.blockTime
  /-- The block time in milliseconds is the transaction's. -/
  blockTimeMs_eq : m.blockTimeMs = milliseconds tx.blockTime
  /-- The position in the block is the transaction's. -/
  transactionIndex_eq : m.transactionIndex = tx.transactionIndex
  /-- The time of receipt is the transaction's. -/
  receivedAt_eq : m.receivedAt = tx.receivedAt
  /-- The event was not handled yet. -/
  handledAt_eq : m.handledAt = 0

/-- An event that reports no state and names the program of an enabled protocol as the one whose
doing it describes. -/
def Event.Owned (enabled : ProtocolSet) (e : Event) : Prop :=
  e.variant.isReport = false ∧ ∃ p, e.variant.protocol? = some p ∧ enabled.contains p = true ∧
    e.metadata.programId = p.programId

/-- An event that a transaction may give. -/
structure Event.Stems (e : Event) (enabled : ProtocolSet) (tx : Transaction) : Prop where
  /-- It repeats what the transaction says of itself. -/
  repeats : e.metadata.Repeats tx
  /-- It is an error or belongs to an enabled protocol. -/
  owned : e.variant = .error ∨ e.Owned enabled

/-! ## Merging -/

variable {enabled : ProtocolSet} {tx : Transaction} {e log ix : Event}

/-- Merging keeps metadata that repeat the transaction. -/
theorem Metadata.Repeats.merge {m n : Metadata} (hm : m.Repeats tx) (hn : n.Repeats tx) :
    (m.merge n).Repeats tx where
  signature_eq := by
    rw [Metadata.merge, hm.signature_eq, hn.signature_eq, ite_self]
  slot_eq := by
    rw [Metadata.merge, hm.slot_eq, hn.slot_eq, ite_self]
  blockTime_eq := by
    rw [Metadata.merge, hm.blockTime_eq, hn.blockTime_eq, Option.or_self]
  blockTimeMs_eq := by
    rw [Metadata.merge, hm.blockTimeMs_eq, hn.blockTimeMs_eq, ite_self]
  transactionIndex_eq := by
    rw [Metadata.merge, hm.transactionIndex_eq, hn.transactionIndex_eq, Option.or_self]
  receivedAt_eq := by
    rw [Metadata.merge, hm.receivedAt_eq, hn.receivedAt_eq, ite_self]
  handledAt_eq := hm.handledAt_eq

/-- Two events of one variant name the same program, so it does not matter which side names it. -/
theorem Event.Owned.programId_merge (hlog : log.Owned enabled) (hix : ix.Owned enabled)
    (hv : log.variant = ix.variant) :
    (log.metadata.merge ix.metadata).programId = log.metadata.programId := by
  obtain ⟨-, p, hp, -, hprogram⟩ := hlog
  obtain ⟨-, q, hq, -, hprogram'⟩ := hix
  have hpq : p = q := by
    rw [hv, hq, Option.some.injEq] at hp
    exact hp.symm
  rw [Metadata.merge, hprogram, hprogram', hpq, ite_self]

/-- Two events that stem from a transaction merge to one that does. -/
theorem Event.Stems.merge (hlog : log.Stems enabled tx) (hix : ix.Stems enabled tx) :
    (log.merge ix).Stems enabled tx := by
  -- Events of different variants do not merge, and the log event stays as it is.
  by_cases hv : log.variant = ix.variant
  · have hmetadata := Event.metadata_merge hv
    have hvariant : (log.merge ix).variant = log.variant := Event.variant_merge log ix
    refine ⟨hmetadata ▸ hlog.repeats.merge hix.repeats, ?_⟩
    rw [Event.Owned, hvariant, hmetadata]
    cases hlog.owned with
    | inl herror => exact .inl herror
    | inr howned =>
      refine .inr ?_
      have hix' : ix.Owned enabled := by
        refine hix.owned.resolve_left fun herror => ?_
        have hreport := howned.1
        rw [hv, herror] at hreport
        contradiction
      rw [howned.programId_merge hix' hv]
      exact howned
  · rw [Event.merge_of_ne hv]
    exact hlog

/-! ## Instructions -/

variable {config : Config} {v : Visit}

/-- An instruction gives nothing, an error event, or what it gives when it is decoded as one of an
enabled program. -/
theorem Visit.examine_cases (v : Visit) (config : Config) (tx : Transaction) (logged : Bool) :
    v.examine config tx logged = .nothing ∨ v.examine config tx logged = .fault (v.fault tx) ∨
      ∃ program p, Protocol.ofKey? program = some p ∧ config.enabled.contains p = true ∧
        v.examine config tx logged = v.decodeAs tx p program := by
  rw [examine]
  cases hkey : tx.keys[v.call.program.toNat]? with
  | none =>
    cases hemit : config.emitErrorEvents with
    | false => exact .inl rfl
    | true => exact .inr (.inl rfl)
  | some program =>
    cases hp : Protocol.ofKey? program with
    | none => exact .inl (by simp only [hp])
    | some p =>
      by_cases henabled : config.enabled.contains p = true
      · by_cases hself : (v.inner.isSome && LogKind.isSelfCall v.call.data) = true
        · by_cases hstop : (config.stopAfterFirstLog && logged) = true
          · exact .inl (by simp only [hp, henabled, hself, hstop, if_true])
          · refine .inr (.inr ⟨program, p, hp, henabled, ?_⟩)
            simp only [hp, henabled, hself, hstop, decodeAs, if_true, if_false,
              Bool.false_eq_true]
        · refine .inr (.inr ⟨program, p, hp, henabled, ?_⟩)
          simp only [hp, henabled, hself, decodeAs, if_true, if_false, Bool.false_eq_true]
      · exact .inl (by simp only [hp, henabled, if_false, Bool.false_eq_true])

/-- A decoded instruction gives an event of its program at its place. -/
theorem Visit.owned_of_decodeAs {p : Protocol} {program : Key}
    (h : (v.decodeAs tx p program).event? = some e) :
    e.variant.protocol? = some p ∧ e.variant.isReport = false ∧
      e.metadata = { v.locate tx.metadata with programId := program } := by
  rw [decodeAs] at h
  by_cases hself : (v.inner.isSome && LogKind.isSelfCall v.call.data) = true
  · rw [if_pos hself, Finding.event?_ofOption_log] at h
    exact Payload.owned_of_log? h
  · rw [if_neg hself, Finding.event?_ofOption_instruction] at h
    exact Payload.owned_of_instruction? h

/-- Whatever a visit finds stems from the transaction. -/
theorem Visit.stems_of_examine {logged : Bool}
    (h : (v.examine config tx logged).event? = some e) : e.Stems config.enabled tx := by
  rcases v.examine_cases config tx logged with hv | hv | ⟨program, p, hp, henabled, hv⟩
  · rw [hv] at h
    contradiction
  · rw [hv] at h
    rw [← Option.some.inj h]
    exact ⟨⟨rfl, rfl, rfl, rfl, rfl, rfl, rfl⟩, .inl rfl⟩
  · obtain ⟨hprotocol, hreport, hmetadata⟩ := owned_of_decodeAs (hv ▸ h)
    have hprogram : e.metadata.programId = p.programId := by
      rw [hmetadata, (Protocol.ofKey?_eq_some_iff program).mp hp]
    refine ⟨?_, .inr ⟨hreport, p, hprotocol, henabled, hprogram⟩⟩
    rw [hmetadata]
    exact ⟨rfl, rfl, rfl, rfl, rfl, rfl, rfl⟩

/-- Every finding is what some visit found. -/
theorem exists_visit_of_mem_findings {logged : Bool} {visits : List Visit} {f : Finding}
    (h : f ∈ findings config tx logged visits) :
    ∃ v ∈ visits, ∃ before, f = v.examine config tx before := by
  induction visits generalizing logged with
  | nil => contradiction
  | cons v visits ih =>
    rw [findings] at h
    cases List.mem_cons.1 h with
    | inl heq => exact ⟨v, List.mem_cons_self, logged, heq⟩
    | inr hmem =>
      obtain ⟨v', hv', before, hf⟩ := ih hmem
      exact ⟨v', List.mem_cons_of_mem v hv', before, hf⟩

namespace Finding

/-- A request is the event of its finding. -/
theorem event?_of_request? {f : Finding} (h : f.request? = some e) : f.event? = some e := by
  cases f <;> first | exact h | contradiction

/-- A log event is the event of its finding. -/
theorem event?_of_log? {f : Finding} (h : f.log? = some e) : f.event? = some e := by
  cases f <;> first | exact h | contradiction

end Finding

namespace Transaction

/-! ## Text logs -/

/-- A scan hands on the payloads of enabled protocols only, whether or not it stops. -/
theorem exists_of_mem_textLogs (h : e ∈ tx.textLogs config) :
    ∃ payload ∈ Emission.all .full tx.logs, config.enabled.contains payload.protocol = true ∧
      Emission.event? tx payload = some e := by
  have hfull : e ∈ Emission.scan config.enabled false (Emission.event? tx) CallStack.start 0
      tx.logs := by
    rw [textLogs] at h
    cases hstop : config.stopAfterFirstLog with
    | false => rwa [hstop] at h
    | true =>
      rw [hstop, Emission.scan_stop] at h
      exact List.mem_of_mem_take h
  rw [Emission.scan_eq_filterMap, Emission.scan_enabled] at hfull
  obtain ⟨payload, hpayload, he⟩ := List.mem_filterMap.1 hfull
  obtain ⟨hlogged, henabled⟩ := List.mem_filter.1 hpayload
  exact ⟨payload, hlogged, henabled, he⟩

/-- The events read from the log stem from the transaction. -/
theorem stems_of_mem_textLogs : ∀ e ∈ tx.textLogs config, e.Stems config.enabled tx := by
  intro e he
  obtain ⟨payload, -, henabled, hpayload⟩ := exists_of_mem_textLogs he
  obtain ⟨hprotocol, hreport, hmetadata⟩ := Payload.owned_of_log? hpayload
  have hprogram : e.metadata.programId = payload.protocol.programId := by
    rw [hmetadata]
  refine ⟨?_, .inr ⟨hreport, payload.protocol, hprotocol, henabled, hprogram⟩⟩
  rw [hmetadata]
  exact ⟨rfl, rfl, rfl, rfl, rfl, rfl, rfl⟩

/-! ## The pass -/

/-- The log events that a pass keeps: where one is enough and a program has reported to itself, the
text logs are not read. -/
def kept (config : Config) (tx : Transaction) : List Event :=
  if config.stopAfterFirstLog && !(tx.reports config).isEmpty then tx.reports config
  else tx.reports config ++ tx.textLogs config

/-- The requests are reconciled with the log events kept, or stand behind them where nothing is
merged. -/
theorem decode_eq (config : Config) (tx : Transaction) : (tx.decode config).events =
    if config.mergeEnabled then reconcile (tx.requests config) (tx.kept config)
    else tx.kept config ++ tx.requests config :=
  rfl

/-- What holds of all that instructions and text logs give and is kept by a merge holds of all
events of a transaction. -/
theorem forall_decode {P : Event → Prop} (hmerge : ∀ log ix, P log → P ix → P (log.merge ix))
    (hvisits : ∀ v ∈ tx.visits config.decodeInner, ∀ logged e,
      (v.examine config tx logged).event? = some e → P e)
    (hlogs : ∀ e ∈ tx.textLogs config, P e) : ∀ e ∈ (tx.decode config).events, P e := by
  have hfound : ∀ f ∈ findings config tx false (tx.visits config.decodeInner), ∀ e,
      f.event? = some e → P e := by
    intro f hf e he
    obtain ⟨v, hv, logged, rfl⟩ := exists_visit_of_mem_findings hf
    exact hvisits v hv logged e he
  have hrequests : ∀ e ∈ tx.requests config, P e := by
    intro e he
    obtain ⟨f, hf, hrequest⟩ := List.mem_filterMap.1 he
    exact hfound f hf e (Finding.event?_of_request? hrequest)
  have hreports : ∀ e ∈ tx.reports config, P e := by
    intro e he
    obtain ⟨f, hf, hlog⟩ := List.mem_filterMap.1 he
    exact hfound f hf e (Finding.event?_of_log? hlog)
  -- The texts of the log are not read where a report was enough.
  have hkept : ∀ e ∈ tx.kept config, P e := by
    rw [kept]
    by_cases hstop : (config.stopAfterFirstLog && !(tx.reports config).isEmpty) = true
    · rw [if_pos hstop]
      exact hreports
    · rw [if_neg hstop]
      exact List.forall_mem_append.2 ⟨hreports, hlogs⟩
  rw [decode_eq]
  by_cases hmerged : config.mergeEnabled = true
  · rw [if_pos hmerged]
    exact forall_reconcile hmerge hrequests hkept
  · rw [if_neg hmerged]
    exact List.forall_mem_append.2 ⟨hkept, hrequests⟩

/-- Whatever a transaction gives, from its own instructions, from inner ones, from a program's
report to itself, from a text log or from two of them merged, repeats what the transaction says of
itself. Its block time in milliseconds is the nearest one in range. Unless it is an error, it
reports no account and no block, but a doing of a protocol that is enabled, and it names the program
of that protocol. -/
theorem stems_of_mem_decode (config : Config) (tx : Transaction) :
    ∀ e ∈ (tx.decode config).events, e.Stems config.enabled tx ∧
      (tx.blockTime = none → e.metadata.blockTimeMs = 0) ∧
      ∀ seconds, tx.blockTime = some seconds → e.metadata.blockTimeMs.toInt =
        max (-9223372036854775808) (min 9223372036854775807 (seconds.toInt * 1000)) := by
  have hstems : ∀ e ∈ (tx.decode config).events, e.Stems config.enabled tx :=
    forall_decode (fun _ _ => Event.Stems.merge) (fun _ _ _ _ => Visit.stems_of_examine)
      stems_of_mem_textLogs
  intro e he
  have hmilliseconds := (hstems e he).repeats.blockTimeMs_eq
  refine ⟨hstems e he, fun hnone => ?_, fun seconds hsome => ?_⟩
  · rw [hmilliseconds, hnone]
    rfl
  · rw [hmilliseconds, hsome, toInt_milliseconds]

/-- A migration that its program also reports to itself. -/
def reported : Transaction where
  signature := Fixed.zero 64
  slot := 3
  blockTime := some 9223372036854776
  transactionIndex := none
  keys := [Protocol.pumpFun.programId]
  calls := [⟨0, InstructionKind.pumpFunMigrate.tag.bytes, []⟩]
  inner := [⟨0, [⟨0, LogKind.selfCall.bytes ++ LogKind.pumpFunMigrate.tag.bytes ++
    List.replicate 160 0, []⟩]⟩]
  logs := []
  receivedAt := 5

/-- The merged event is one of the program's own, and its block time is cut off. -/
theorem stems_of_mem_decode_reported :
    ∃ e ∈ (reported.decode thorough).events, e.variant = .pumpFunMigrate ∧
      e.metadata.slot = 3 ∧ e.metadata.programId = Protocol.pumpFun.programId ∧
      e.metadata.blockTimeMs.toInt = 9223372036854775807 := by
  have hvariants : (reported.decode thorough).events.map Event.variant = [.pumpFunMigrate] := by
    decide +kernel
  have hmem : Variant.pumpFunMigrate ∈ (reported.decode thorough).events.map Event.variant := by
    rw [hvariants]
    exact List.mem_singleton_self _
  obtain ⟨e, he, hv⟩ := List.mem_map.1 hmem
  obtain ⟨hstems, -, htime⟩ := stems_of_mem_decode thorough reported e he
  obtain ⟨-, p, hp, -, hprogram⟩ := hstems.owned.resolve_left (by rw [hv]; decide)
  have hpump : p = .pumpFun := by
    rw [hv] at hp
    exact (Option.some.inj hp).symm
  exact ⟨e, he, hv, hstems.repeats.slot_eq, hpump ▸ hprogram,
    (htime 9223372036854776 rfl).trans (by decide)⟩

end Transaction

end DexFeed
