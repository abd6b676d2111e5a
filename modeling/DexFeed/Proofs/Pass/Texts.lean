import DexFeed.Proofs.Pass.Provenance
import DexFeed.Proofs.Payload.Texts
import DexFeed.Proofs.Text.Utf8

/-!
# Texts of a transaction

Every text of an event is well formed, because its bytes were checked where they stand: in the data
of an instruction or in a payload that a line of the logs carries. The one text that is not quoted
is the message of an error. Merging takes each field from one side, so it brings in no other text.
-/

namespace DexFeed

/-- A text that a transaction may bring into its events. -/
inductive Transaction.Offers (config : Config) (tx : Transaction) (s : String) : Prop
  /-- Its bytes stand in the data of an instruction that is visited. -/
  | call (v : Visit) (visited : v ∈ tx.visits config.decodeInner)
      (quoted : Utf8.encode s <:+: v.call.data)
  /-- Its bytes stand in the payload of a line of the logs. -/
  | log (line payload : Bytes) (logged : line ∈ tx.logs)
      (carried : LogLine.payload? line = some payload) (quoted : Utf8.encode s <:+: payload)
  /-- It is the message of the error at an instruction that is visited, and its bytes are the codes
  of its characters. -/
  | fault (v : Visit) (visited : v ∈ tx.visits config.decodeInner)
      (stated : (v.fault tx).get .message = s) (plain : Utf8.encode s = ascii s)

/-- An event all of whose texts come from a transaction. -/
def Event.Reads (config : Config) (tx : Transaction) (e : Event) : Prop :=
  ∀ f s, e.text? f = some s → tx.Offers config s

variable {config : Config} {tx : Transaction} {e log ix : Event} {v : Visit}

/-- Each text of a merged event is a text of a side. -/
theorem Event.Reads.merge (hlog : log.Reads config tx) (hix : ix.Reads config tx) :
    (log.merge ix).Reads config tx := by
  intro f s hs
  by_cases hv : log.variant = ix.variant
  · rw [text?, Valuation.text?, get_merge hv] at hs
    cases MergeRule.apply_eq_or (log.variant.mergeRule f) f.type.zero (log.get f) (ix.get f) with
    | inl heq =>
      rw [heq] at hs
      exact hlog f s hs
    | inr heq =>
      rw [heq] at hs
      exact hix f s hs
  · rw [merge_of_ne hv] at hs
    exact hlog f s hs

/-- The place of a visit is written with characters below 128. -/
theorem Visit.plain_place (v : Visit) : Utf8.Plain v.place := by
  rw [place]
  cases v.inner with
  | none => exact Utf8.plain_toString v.outer
  | some j =>
    exact ((Utf8.plain_toString v.outer).append (by decide)).append (Utf8.plain_toString j)

/-- The message of an error is written with characters below 128. -/
theorem Visit.plain_message (v : Visit) (tx : Transaction) :
    Utf8.Plain ((v.fault tx).get .message) := by
  have hfront : Utf8.Plain ("instruction " ++ v.place ++ ": program index ") :=
    (Utf8.Plain.append (by decide) v.plain_place).append (by decide)
  have hindex : Utf8.Plain ("instruction " ++ v.place ++ ": program index " ++
      toString v.call.program.toNat ++ " outside ") :=
    (hfront.append (Utf8.plain_toString _)).append (by decide)
  exact (hindex.append (Utf8.plain_toString tx.keys.length)).append (by decide)

/-- The one text of an error comes from the transaction: it is its message. -/
theorem Visit.reads_fault (hv : v ∈ tx.visits config.decodeInner) :
    (v.fault tx).Reads config tx := by
  intro f s hs
  by_cases hf : f = .message
  · subst hf
    cases Option.some.inj hs
    exact .fault v hv rfl (v.plain_message tx).encode_eq
  · have hzero : (v.fault tx).get f = f.type.zero := by
      rw [fault, Event.get_ofValuation, Valuation.set_of_ne (Ne.symm hf)]
      exact ite_self _
    rw [Event.text?, Valuation.text?, hzero] at hs
    refine .call v hv ?_
    rw [WireType.encode_of_text?_zero hs]
    exact List.nil_infix

/-- The texts of what a call gives come from the transaction: they stand in the data of the call. -/
theorem Visit.reads_decodeAs {p : Protocol} {program : Key}
    (hv : v ∈ tx.visits config.decodeInner) (h : (v.decodeAs tx p program).event? = some e) :
    e.Reads config tx := by
  rw [decodeAs] at h
  by_cases hself : (v.inner.isSome && LogKind.isSelfCall v.call.data) = true
  · rw [if_pos hself, Finding.event?_ofOption_log] at h
    have hquotes := Arrival.quotes_of_event? (a := .log) h
    exact fun f s hs => .call v hv (hquotes f s hs)
  · rw [if_neg hself, Finding.event?_ofOption_instruction] at h
    have hquotes := Arrival.quotes_of_event? (a := .instruction ⟨tx.keys, v.call.accounts⟩) h
    exact fun f s hs => .call v hv (hquotes f s hs)

/-- Whatever a visit finds has its texts from the transaction. -/
theorem Visit.reads_examine {logged : Bool} (hv : v ∈ tx.visits config.decodeInner)
    (h : (v.examine config tx logged).event? = some e) : e.Reads config tx := by
  rcases v.examine_cases config tx logged with hnothing | hfault | ⟨program, p, -, -, hdecoded⟩
  · rw [hnothing] at h
    contradiction
  · rw [hfault] at h
    cases h
    exact reads_fault hv
  · rw [hdecoded] at h
    exact reads_decodeAs hv h

/-- The texts of the events read from the log stand in the payloads of its lines. -/
theorem Transaction.reads_textLogs : ∀ e ∈ tx.textLogs config, e.Reads config tx := by
  intro e he
  obtain ⟨payload, hpayload, -, hevent⟩ := exists_of_mem_textLogs he
  obtain ⟨line, hline, hbytes⟩ := Emission.exists_line_of_mem_scan hpayload
  have hquotes := Arrival.quotes_of_event? (a := .log) hevent
  exact fun f s hs => .log line payload.bytes hline hbytes (hquotes f s hs)

/-- All events of a transaction, merged or not, have their texts from it. -/
theorem Transaction.reads_decode : ∀ e ∈ (tx.decode config).events, e.Reads config tx :=
  forall_decode (fun _ _ => Event.Reads.merge) (fun _ hv _ _ => Visit.reads_examine hv)
    reads_textLogs

/-- Bytes are taken for well formed exactly when they are the encodings of some characters, one
after the other, and whether they are is found out in memory without a look outside of them. Every
text in an event is well formed: the bytes of a text that a payload gives stand in the payload, and
so do those of a transaction's events in what the transaction consists of, but for the message of an
error. -/
theorem isValid_texts :
    (∀ bs : Bytes, Utf8.isValid bs = true ↔
        ∃ cs : List Char, bs = cs.flatMap String.utf8EncodeChar) ∧
      (∀ (memory : Memory) (start n : Nat),
        (Utf8.walk start n).run memory = Utf8.isValid (memory.span start n) ∧
          ∀ i ∈ (Utf8.walk start n).touched memory, start ≤ i ∧ i < start + n) ∧
      (∀ (a : Arrival) (p : Protocol) (data : Bytes) (m : Metadata) (e : Event),
        a.event? p data m = some e → ∀ f s, e.text? f = some s →
          Utf8.isValid (Utf8.encode s) = true ∧ Utf8.encode s <:+: data) ∧
      ∀ (config : Config) (tx : Transaction), ∀ e ∈ (tx.decode config).events, ∀ f s,
        e.text? f = some s →
          Utf8.isValid (Utf8.encode s) = true ∧ tx.Offers config s := by
  refine ⟨fun _ => Utf8.isValid_iff, fun memory start n => ?_, ?_, ?_⟩
  · exact ⟨Utf8.run_walk memory start n, Utf8.within_walk memory start n⟩
  · intro a p data m e h f s hs
    exact ⟨Utf8.isValid_encode s, Arrival.quotes_of_event? h f s hs⟩
  · intro config tx e he f s hs
    exact ⟨Utf8.isValid_encode s, Transaction.reads_decode e he f s hs⟩

/-- A new token whose name is a character of two bytes. -/
def christened : Transaction where
  signature := Fixed.zero 64
  slot := 3
  blockTime := none
  transactionIndex := none
  keys := [Protocol.pumpFun.programId]
  calls := [⟨0, InstructionKind.pumpFunCreate.tag.bytes ++
    [2, 0, 0, 0, 0xC3, 0xA9, 1, 0, 0, 0, 83, 0, 0, 0, 0], []⟩]
  inner := []
  logs := []
  receivedAt := 5

/-- The name is well formed, and the call spells it. -/
theorem isValid_texts_christened :
    (∃ call ∈ christened.calls, ∃ e,
        (Arrival.instruction ⟨[], []⟩).event? .pumpFun call.data Metadata.empty = some e ∧
          e.text? .name = some "é" ∧ Utf8.encode "é" <:+: call.data) ∧
      ∃ e ∈ (christened.decode thorough).events, e.text? .name = some "é" ∧
        Utf8.isValid (Utf8.encode "é") = true ∧ christened.Offers thorough "é" := by
  obtain ⟨-, -, harrival, hdecode⟩ := isValid_texts
  constructor
  · have hread : ((Arrival.instruction ⟨[], []⟩).event? .pumpFun christened.calls[0].data
        Metadata.empty).map (Event.text? · .name) = some (some "é") := by
      decide +kernel
    obtain ⟨e, he, hname⟩ := Option.map_eq_some_iff.1 hread
    exact ⟨christened.calls[0], List.mem_singleton_self _, e, he, hname,
      (harrival _ _ _ _ e he _ _ hname).2⟩
  · have hread : (christened.decode thorough).events.map (Event.text? · .name) = [some "é"] := by
      decide +kernel
    have hmem : some "é" ∈ (christened.decode thorough).events.map (Event.text? · .name) := by
      rw [hread]
      exact List.mem_singleton_self _
    obtain ⟨e, he, hname⟩ := List.mem_map.1 hmem
    exact ⟨e, he, hname, hdecode thorough christened e he _ _ hname⟩

end DexFeed
