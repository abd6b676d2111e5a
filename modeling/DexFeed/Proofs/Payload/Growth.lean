import DexFeed.Proofs.Payload.Arrival

/-!
# Payloads of any length

Two payloads of which one continues the other have the required part in common, so they differ at
most in what is appended. Of the appended fields those are read that fit behind the required part
one after the other, each from its own place; the others keep the value that they have in a payload
without any of them, which is zero, except that the time of a last update is then the time of the
event. No length of what follows the required part makes a payload fail.
-/

namespace DexFeed

/-- The values of appended fields that a payload does not state. -/
def Valuation.unstated (v : Valuation) : Valuation :=
  Valuation.zero.set .lastUpdateTimestamp (v .timestamp)

/-- Every appended field but one is zero when it is not stated. -/
theorem Valuation.unstated_of_ne {f : Field} (h : f ≠ .lastUpdateTimestamp) (v : Valuation) :
    v.unstated f = f.type.zero :=
  Valuation.set_of_ne (Ne.symm h)

/-- Filling accounts in treats every field by itself. -/
theorem Accounts.fill_congr {v w : Valuation} {f : Field} (h : v f = w f) (a : Accounts)
    (slots : List Slot) : a.fill v slots f = a.fill w slots f := by
  induction slots generalizing v w with
  | nil => exact h
  | cons slot slots ih =>
    refine ih ?_
    by_cases hslot : slot.field = f
    · subst hslot
      rw [Valuation.set_self, Valuation.set_self]
    · rw [Valuation.set_of_ne hslot, Valuation.set_of_ne hslot, h]

namespace PayloadKind

variable {kind : PayloadKind} {form : Form}

/-- Every form of a kind is steady. -/
theorem steady_of_mem_format (h : form ∈ kind.format) : form.Steady := by
  cases kind with
  | instruction kind => exact InstructionKind.steady_of_mem_format h
  | log kind => exact LogKind.steady_of_mem_format h
  | snapshot kind =>
    have hall : ∀ form ∈ kind.format, form.Steady := by
      cases kind <;> decide
    exact hall form h

/-- No required item changes an appended field but the time of the last update. -/
theorem not_mem_fills_of_mem_appended (h : form ∈ kind.format) :
    ∀ f ∈ kind.appended, f ≠ .lastUpdateTimestamp → f ∉ form.items.flatMap Item.fills := by
  have hall : ∀ form ∈ kind.format, ∀ f ∈ kind.appended, f ≠ .lastUpdateTimestamp →
      f ∉ form.items.flatMap Item.fills := by
    cases kind with
    | instruction kind => cases kind <;> decide
    | log kind => cases kind <;> decide
    | snapshot kind => cases kind <;> decide
  exact hall form h

/-- Only a trade on a pump curve states the time of the last update. -/
theorem eq_of_lastUpdateTimestamp_mem (h : .lastUpdateTimestamp ∈ kind.appended) :
    kind = .log .pumpFunTrade := by
  cases kind with
  | instruction kind => cases kind <;> simp_all [appended, InstructionKind.appended]
  | log kind => cases kind <;> simp_all [appended, LogKind.reports, Variant.appended]
  | snapshot kind => cases kind <;> simp_all [appended, SnapshotKind.appended]

end PayloadKind

namespace Arrival

variable {a : Arrival} {p : Protocol} {data rest rest' : Bytes} {m : Metadata} {o : Opened}
  {kind : PayloadKind} {f : Field} {v w : Valuation} {n n' : Nat}

/-! ## What comes beside the data -/

/-- What comes beside the data is added field by field. -/
theorem supply_congr (h : v f = w f) (a : Arrival) (kind : PayloadKind) :
    a.supply kind v f = a.supply kind w f := by
  cases a with
  | instruction accounts =>
    cases kind with
    | instruction kind => exact Accounts.fill_congr h accounts kind.slots
    | log kind => exact h
    | snapshot kind => exact h
  | log => exact h
  | snapshot account =>
    cases kind with
    | snapshot kind =>
      by_cases hf : Field.pubkey = f
      · subst hf
        rw [supply, supply, Valuation.set_self, Valuation.set_self]
      · rw [supply, supply, Valuation.set_of_ne hf, Valuation.set_of_ne hf, h]
    | instruction kind => exact h
    | log kind => exact h

/-- No appended field comes from beside the data. -/
theorem supply_of_mem_appended (h : f ∈ kind.appended) (a : Arrival) (v : Valuation) :
    a.supply kind v f = v f := by
  cases a with
  | instruction accounts =>
    cases kind with
    | instruction kind =>
      have hall : ∀ f ∈ kind.appended, f ∉ kind.slots.map Slot.field := by
        cases kind <;> decide
      exact Accounts.fill_of_not_mem (hall f h)
    | log kind => rfl
    | snapshot kind => rfl
  | log => rfl
  | snapshot account =>
    cases kind with
    | snapshot kind =>
      exact Valuation.set_of_ne
        (Ne.symm (SnapshotKind.ne_pubkey_of_mem f (List.mem_append_right _ h)))
    | instruction kind => rfl
    | log kind => rfl

/-! ## What follows the required part -/

/-- A payload that has its required part has its kind. -/
theorem kind?_of_opened? (h : a.opened? p data = some (o, rest)) :
    a.kind? p data = some o.kind := by
  obtain ⟨⟨kind, body⟩, hbody, hrequired⟩ := Option.bind_eq_some_iff.1 h
  obtain ⟨r, -, e⟩ := Option.map_eq_some_iff.1 hrequired
  cases e
  rw [kind?, hbody, Option.map_some]

/-- The required part is read by a form of the kind, somewhere in the data. -/
theorem form_mem_of_opened? (h : a.opened? p data = some (o, rest)) :
    o.form ∈ o.kind.format ∧
      ∃ body, Item.readAll Valuation.zero body o.form.items = some (o.values, rest) := by
  obtain ⟨⟨kind, body⟩, -, hrequired⟩ := Option.bind_eq_some_iff.1 h
  obtain ⟨r, hr, e⟩ := Option.map_eq_some_iff.1 hrequired
  cases e
  obtain ⟨hform, hitems⟩ := Format.mem_of_required? hr
  exact ⟨hform, body, hitems⟩

/-- The required part of a payload gives appended fields the values that they have unstated. -/
theorem values_of_mem_appended (h : a.opened? p data = some (o, rest)) (hf : f ∈ o.kind.appended) :
    o.values f = o.values.unstated f := by
  obtain ⟨hform, body, hitems⟩ := form_mem_of_opened? h
  by_cases hlast : f = .lastUpdateTimestamp
  · -- The last item of a trade copies the time of the event.
    subst hlast
    rw [PayloadKind.eq_of_lastUpdateTimestamp_mem hf] at hform
    rw [List.mem_singleton.1 hform, Item.readAll_append] at hitems
    obtain ⟨⟨v, left⟩, -, hcopied⟩ := Option.bind_eq_some_iff.1 hitems
    have hvalues : v.set .lastUpdateTimestamp (v .timestamp) = o.values :=
      congrArg Prod.fst (Option.some.inj hcopied)
    rw [← hvalues]
    rfl
  · obtain ⟨-, -, -, hframe⟩ :=
      Item.spells_of_readAll hitems (PayloadKind.steady_of_mem_format hform).1
    rw [hframe f (PayloadKind.not_mem_fills_of_mem_appended hform f hf hlast),
      Valuation.unstated_of_ne hlast]
    rfl

/-- A field depends on what follows only as far as reading the additions changes it. -/
theorem get_complete_congr
    (h : readTail o.values rest o.form.additions f = readTail o.values rest' o.form.additions f)
    (a : Arrival) (m : Metadata) : (a.complete m o rest).get f = (a.complete m o rest').get f := by
  rw [complete, complete, Event.get_ofValuation, Event.get_ofValuation, supply_congr h]

/-- An appended field has the value that stands behind the required part. -/
theorem get_complete_of_mem_appended (hform : o.form ∈ o.kind.format) (hf : f ∈ o.kind.appended)
    (a : Arrival) (m : Metadata) (rest : Bytes) :
    (a.complete m o rest).get f = readTail o.values rest o.form.additions f := by
  rw [complete, Event.get_ofValuation,
    if_pos (PayloadKind.mem_fields_of_mem_appended hform f hf), supply_of_mem_appended hf]

/-- No other field depends on what stands behind the required part. -/
theorem get_complete_of_not_mem_appended (hform : o.form ∈ o.kind.format)
    (hf : f ∉ o.kind.appended) (a : Arrival) (m : Metadata) (rest rest' : Bytes) :
    (a.complete m o rest).get f = (a.complete m o rest').get f := by
  have htail : f ∉ o.form.additions.map Addition.field := by
    rw [← PayloadKind.tail_of_mem_format hform] at hf
    exact hf
  refine get_complete_congr ?_ a m
  rw [readTail_of_not_mem htail, readTail_of_not_mem htail]

/-- What follows the required part does not change which values the unstated fields have. -/
theorem unstated_complete (h : a.opened? p data = some (o, rest)) (hf : f ∈ o.kind.appended)
    (m : Metadata) (rest' : Bytes) :
    (a.complete m o rest').get.unstated f = o.values f := by
  rw [values_of_mem_appended h hf]
  by_cases hlast : f = .lastUpdateTimestamp
  · subst hlast
    have hform := (form_mem_of_opened? h).1
    have hkind := PayloadKind.eq_of_lastUpdateTimestamp_mem hf
    have hvariant : o.form.variant = .pumpFunTrade := by
      rw [hkind] at hform
      rw [List.mem_singleton.1 hform]
    have htimestamp : (a.complete m o rest').get .timestamp = o.values .timestamp := by
      have htail : .timestamp ∉ o.form.additions.map Addition.field := by
        have heq := PayloadKind.tail_of_mem_format hform
        rw [Form.tail, hkind] at heq
        rw [heq]
        decide
      have hsupply : ∀ v, a.supply o.kind v = v := by
        intro v
        rw [hkind]
        cases a <;> rfl
      rw [complete, Event.get_ofValuation, hsupply, readTail_of_not_mem htail, hvariant]
      exact if_pos (by decide)
    rw [Valuation.unstated, htimestamp]
    rfl
  · rw [Valuation.unstated_of_ne hlast, Valuation.unstated_of_ne hlast]

/-- Data require one number of bytes only. -/
theorem Requires.unique (h : a.Requires p m data n) (h' : a.Requires p m data n') : n = n' := by
  rcases Nat.lt_trichotomy n n' with hlt | heq | hlt
  · have hnone := h'.shortest n hlt
    exact absurd h.understood (by rw [hnone]; exact Bool.false_ne_true)
  · exact heq
  · have hnone := h.shortest n' hlt
    exact absurd h'.understood (by rw [hnone]; exact Bool.false_ne_true)

/-! ## Longer payloads -/

/-- What is understood is understood, too, with more behind it. -/
theorem event?_append (h : a.opened? p data = some (o, rest)) (more : Bytes) (m : Metadata) :
    a.event? p (data ++ more) m = some (a.complete m o (rest ++ more)) :=
  event?_of_opened? ((prefixStable_opened? a p).append h more) m

/-- Decoding is monotone. A payload that is understood is understood with any bytes behind it, too:
the event has the same variant, the same metadata and the same value in every field, accounts among
them, except in appended fields whose bytes did not all stand in the payload. A payload that is not
understood has no beginning that is, header and tag included. -/
theorem event?_monotone (a : Arrival) (p : Protocol) (m : Metadata) (data : Bytes) :
    (∀ e, a.event? p data m = some e →
      ∃ kind n, a.kind? p data = some kind ∧ a.Requires p m data n ∧
        ∀ more, ∃ e', a.event? p (data ++ more) m = some e' ∧
          e'.variant = e.variant ∧ e'.metadata = e.metadata ∧
          ∀ f, e'.get f = e.get f ∨ ∃ i, kind.appended[i]? = some f ∧
            data.length < n + Field.span (kind.appended.take (i + 1))) ∧
    (a.event? p data m = none → ∀ d, d <+: data → a.event? p d m = none) := by
  constructor
  · intro e h
    obtain ⟨o, rest, hopened, rfl⟩ := exists_opened?_of_event? h
    have hform := (form_mem_of_opened? hopened).1
    have htail := PayloadKind.tail_of_mem_format hform
    obtain ⟨s, rfl, -⟩ := prefixStable_opened? a p data o rest hopened
    refine ⟨o.kind, _, kind?_of_opened? hopened, requires_of_opened? hopened m, fun more =>
      ⟨_, event?_append hopened more m, rfl, rfl, fun f => ?_⟩⟩
    by_cases hf : f ∈ o.kind.appended
    · obtain ⟨i, hi⟩ := List.getElem?_of_mem hf
      -- Only an appended field that was cut off may change when more bytes arrive.
      by_cases hfits : Field.span (o.kind.appended.take (i + 1)) ≤ rest.length
      · left
        rw [← htail, Form.tail] at hi hfits
        exact get_complete_congr (readTail_append_of_fits
          (PayloadKind.orderly_of_mem_format hform) hi hfits more o.values) a m
      · right
        refine ⟨i, hi, ?_⟩
        rw [List.length_append]
        omega
    · exact .inl (get_complete_of_not_mem_appended hform hf a m _ _)
  · rintro h d ⟨more, rfl⟩
    cases hd : a.opened? p d with
    | none => exact event?_eq_none_of_opened? hd
    | some q =>
      rw [event?_append hd more m] at h
      contradiction

/-- A trade of nothing, which states no more than what is required. -/
def quietTrade : Bytes :=
  LogKind.pumpFunTrade.tag.bytes ++ List.replicate 217 0

/-- The quiet trade is its required part and nothing else. -/
theorem exists_opened?_quietTrade : ∃ o, log.opened? .pumpFun quietTrade = some (o, []) := by
  have hrest : (log.opened? .pumpFun quietTrade).map Prod.snd = some [] := by
    decide +kernel
  obtain ⟨⟨o, rest⟩, hopened, hnil⟩ := Option.map_eq_some_iff.1 hrest
  cases hnil
  exact ⟨o, hopened⟩

/-- The quiet trade is a trade. -/
theorem kind?_quietTrade : log.kind? .pumpFun quietTrade = some (.log .pumpFunTrade) := by
  have hfind : LogKind.find? .pumpFun quietTrade = some .pumpFunTrade :=
    LogKind.find?_eq_some_iff.2 ⟨rfl, .inl (List.prefix_append _ _)⟩
  rw [kind?, body?, hfind, Option.map_some, Option.map_some]

/-- One byte more leaves the fee of the trade as it is, and nothing shorter is understood. -/
theorem event?_monotone_trade :
    (∃ e e', log.event? .pumpFun quietTrade Metadata.empty = some e ∧
      log.event? .pumpFun (quietTrade ++ [1]) Metadata.empty = some e' ∧
      e'.get .fee = e.get .fee) ∧
    log.event? .pumpFun (quietTrade.take 100) Metadata.empty = none := by
  obtain ⟨o, hopened⟩ := exists_opened?_quietTrade
  have hevent := event?_of_opened? hopened Metadata.empty
  obtain ⟨kind, n, hkind, -, hmore⟩ :=
    (event?_monotone log .pumpFun Metadata.empty quietTrade).1 _ hevent
  obtain ⟨e', he', -, -, hfields⟩ := hmore [1]
  have hshort : log.event? .pumpFun (quietTrade.take 224) Metadata.empty = none := by
    decide +kernel
  refine ⟨⟨_, e', hevent, he', (hfields .fee).resolve_right ?_⟩,
    (event?_monotone log .pumpFun Metadata.empty (quietTrade.take 224)).2 hshort _ ?_⟩
  · rintro ⟨i, hi, -⟩
    rw [← Option.some.inj (kind?_quietTrade.symm.trans hkind)] at hi
    exact absurd (List.mem_of_getElem? hi) (by decide)
  · exact List.take_prefix_take_left (by decide)

/-! ## What is appended -/

/-- Behind the required part of a payload any bytes may follow, and it is understood whatever their
number. Of the appended fields the longest run is read that fits, each field from its own place;
those behind the run keep the value that no payload states, and bytes that fill no field are
ignored. All other fields are as in every payload with this required part. -/
theorem event?_longest_run {e₀ : Event} (h : a.event? p data m = some e₀) :
    ∃ kind n, a.kind? p data = some kind ∧ a.Requires p m data n ∧
      ∀ tail, ∃ e k, a.event? p (data.take n ++ tail) m = some e ∧
        Field.Run kind.appended tail.length k ∧
        (∀ i f, kind.appended[i]? = some f → i < k →
          f.type.Spells (e.get f)
            ((tail.drop (Field.span (kind.appended.take i))).take f.type.width)) ∧
        (∀ i f, kind.appended[i]? = some f → k ≤ i → e.get f = e.get.unstated f) ∧
        e.variant = e₀.variant ∧ e.metadata = m ∧
        (∀ f ∉ kind.appended, e.get f = e₀.get f) ∧
        a.event? p (data.take n ++ tail.take (Field.span (kind.appended.take k))) m = some e := by
  obtain ⟨o, rest, hopened, rfl⟩ := exists_opened?_of_event? h
  have hform := (form_mem_of_opened? hopened).1
  have htail := PayloadKind.tail_of_mem_format hform
  have orderly := PayloadKind.orderly_of_mem_format hform
  obtain ⟨s, rfl, hs⟩ := prefixStable_opened? a p data o rest hopened
  have htake : (s ++ rest).take ((s ++ rest).length - rest.length) = s := by
    rw [List.length_append, Nat.add_sub_cancel, List.take_left]
  refine ⟨o.kind, _, kind?_of_opened? hopened, requires_of_opened? hopened m, fun tail => ?_⟩
  obtain ⟨k, hrun⟩ := Field.exists_run o.kind.appended tail.length
  have hindex : ∀ {i f}, o.kind.appended[i]? = some f → i < o.kind.appended.length :=
    fun hi => (List.getElem?_eq_some_iff.1 hi).1
  rw [htake]
  refine ⟨a.complete m o tail, k, event?_of_opened? (hs tail) m, hrun, ?_, ?_, rfl, rfl, ?_, ?_⟩
  · intro i f hi hik
    have hfits := (hrun.lt_iff (hindex hi)).1 hik
    rw [get_complete_of_mem_appended hform (List.mem_of_getElem? hi)]
    rw [← htail, Form.tail] at hi hfits ⊢
    exact readTail_of_fits orderly hi hfits o.values
  · intro i f hi hki
    have hshort : tail.length < Field.span (o.kind.appended.take (i + 1)) :=
      Nat.lt_of_not_le fun hfits => Nat.not_lt.2 hki ((hrun.lt_iff (hindex hi)).2 hfits)
    have hmem := List.mem_of_getElem? hi
    rw [get_complete_of_mem_appended hform hmem, unstated_complete hopened hmem]
    rw [← htail, Form.tail] at hi hshort
    exact readTail_of_not_fits orderly hi hshort o.values
  · intro f hf
    exact get_complete_of_not_mem_appended hform hf a m tail rest
  · rw [event?_of_opened? (hs _) m]
    rw [← htail, Form.tail] at hrun ⊢
    rw [complete, readTail_take_run orderly hrun, complete]

/-- Of three bytes behind the trade the first tells whether its volume counts, and the other two are
too few for a number of tokens. -/
theorem event?_longest_run_trade :
    ∃ e, log.event? .pumpFun (quietTrade ++ [1, 2, 3]) Metadata.empty = some e ∧
      e.get .trackVolume = true ∧ e.get .totalUnclaimedTokens = (0 : UInt64) ∧
      log.event? .pumpFun (quietTrade ++ [1]) Metadata.empty = some e := by
  obtain ⟨o, hopened⟩ := exists_opened?_quietTrade
  obtain ⟨kind, n, hkind, hrequires, hall⟩ :=
    event?_longest_run (event?_of_opened? hopened Metadata.empty)
  have hn : n = quietTrade.length := by
    rw [hrequires.unique (requires_of_opened? hopened Metadata.empty), List.length_nil,
      Nat.sub_zero]
  obtain ⟨e, k, he, hrun, hread, hunread, -, -, -, hcut⟩ := hall [1, 2, 3]
  rw [hn, List.take_length] at he hcut
  obtain rfl : .log .pumpFunTrade = kind := Option.some.inj (kind?_quietTrade.symm.trans hkind)
  have hlow : 0 < k := (hrun.lt_iff (by decide)).2 (by decide)
  have hhigh : ¬1 < k := fun h => absurd ((hrun.lt_iff (by decide)).1 h) (by decide)
  obtain rfl : k = 1 := by omega
  obtain ⟨b, hb, hflag⟩ := hread 0 .trackVolume rfl hlow
  refine ⟨e, he, ?_, hunread 1 .totalUnclaimedTokens rfl (Nat.le_refl 1), hcut⟩
  rw [hflag, ← List.singleton_inj.1 hb]
  rfl

end Arrival

end DexFeed
