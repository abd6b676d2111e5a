import DexFeed.Proofs.Payload.Requested
import DexFeed.Proofs.Payload.Logged
import DexFeed.Proofs.Payload.Snapshots

/-!
# Payloads by the way they arrive

A payload is the data of an instruction, of a log or of an account, and its program and what stands
in front of its body tell its kind. Of each kind a part is required, which is read from the front of
the data and decides whether they are understood; what stands behind is looked at for additions
only. `Arrival.opened?` reads the required part and nothing else, so it takes the same from every
continuation of the data, and the event of a payload is what is opened together with what the rest
adds. How many bytes are required is told by the events alone: `Arrival.Requires` speaks of the
shortest beginning of the data that is understood.
-/

namespace DexFeed

/-! ## Required items -/

namespace Item

/-- An item that is read is read the same whatever comes behind. -/
theorem prefixStable_read (item : Item) (v : Valuation) :
    PrefixStable fun bs => item.read v bs := by
  cases item with
  | field f =>
    exact (WireType.prefixStable_parse f.type).bind fun x => PrefixStable.pure (v.set f x)
  | unused t => exact (WireType.prefixStable_parse t).bind fun _ => PrefixStable.pure v
  | exactly f x =>
    have hnext : ∀ y, PrefixStable fun bs => if y = x then some (v.set f x, bs) else none := by
      intro y
      by_cases hy : y = x
      · simp only [if_pos hy]
        exact PrefixStable.pure _
      · simp only [if_neg hy]
        exact PrefixStable.fail
    exact (WireType.prefixStable_parse f.type).bind hnext
  | byte b =>
    intro bs w rest h
    cases bs with
    | nil => contradiction
    | cons c bs =>
      by_cases hc : c = b
      · simp only [read, if_pos hc, Option.some.injEq, Prod.mk.injEq] at h
        obtain ⟨rfl, rfl⟩ := h
        exact ⟨[c], rfl, fun more => by simp [read, hc]⟩
      · simp only [read, if_neg hc, reduceCtorEq] at h
  | given f x => exact PrefixStable.pure _
  | copied target source same => exact PrefixStable.pure _

/-- Items that are read are read the same whatever comes behind. -/
theorem prefixStable_readAll (items : List Item) (v : Valuation) :
    PrefixStable fun bs => readAll v bs items := by
  induction items generalizing v with
  | nil => exact PrefixStable.pure v
  | cons item items ih => exact (prefixStable_read item v).bind ih

end Item

namespace Form

/-- A form reads its items and then, without failing, the additions. -/
theorem read_eq_map (form : Form) (body : Bytes) : form.read body =
    (Item.readAll Valuation.zero body form.items).map fun p =>
      readTail p.1 p.2 form.additions := by
  rw [read]
  cases Item.readAll Valuation.zero body form.items <;> rfl

end Form

namespace Format

/-- The form whose required items a body has, with their values and what is left of the body. -/
def required? : Format → Bytes → Option ((Form × Valuation) × Bytes)
  | [], _ => none
  | form :: more, body =>
    match Item.readAll Valuation.zero body form.items with
    | some (v, rest) => some ((form, v), rest)
    | none => required? more body

variable {format : Format} {body rest : Bytes} {form : Form} {v : Valuation}

/-- A format reads its required part and then, without failing, the additions of the form. -/
theorem read_eq_map_required? (format : Format) (body : Bytes) : format.read body =
    (format.required? body).map fun q =>
      (q.1.1.variant, readTail q.1.2 q.2 q.1.1.additions) := by
  induction format with
  | nil => rfl
  | cons form more ih =>
    rw [read, required?, Form.read_eq_map]
    cases Item.readAll Valuation.zero body form.items with
    | none => exact ih
    | some p => rfl

/-- The required part is that of a form of the format. -/
theorem mem_of_required? (h : format.required? body = some ((form, v), rest)) :
    form ∈ format ∧ Item.readAll Valuation.zero body form.items = some (v, rest) := by
  induction format with
  | nil => contradiction
  | cons first more ih =>
    rw [required?] at h
    cases hfirst : Item.readAll Valuation.zero body first.items with
    | some p =>
      rw [hfirst] at h
      cases h
      exact ⟨List.mem_cons_self, hfirst⟩
    | none =>
      rw [hfirst] at h
      exact ⟨List.mem_cons_of_mem _ (ih h).1, (ih h).2⟩

/-- In an exclusive format more bytes behind a body never bring another form into play. -/
theorem prefixStable_required? (exclusive : format.Exclusive) : PrefixStable format.required? := by
  induction format with
  | nil => exact PrefixStable.fail
  | cons first more ih =>
    obtain ⟨hfirst, hmore⟩ := List.pairwise_cons.1 exclusive
    rintro body ⟨form, v⟩ rest h
    rw [required?] at h
    cases hread : Item.readAll Valuation.zero body first.items with
    | some p =>
      rw [hread] at h
      cases h
      obtain ⟨s, hs, hall⟩ := Item.prefixStable_readAll first.items _ body _ _ hread
      refine ⟨s, hs, fun extra => ?_⟩
      have hagain : Item.readAll Valuation.zero (s ++ extra) first.items = some (p.1, extra) :=
        hall extra
      rw [required?, hagain]
    | none =>
      rw [hread] at h
      obtain ⟨s, hs, hall⟩ := ih hmore body _ _ h
      refine ⟨s, hs, fun extra => ?_⟩
      obtain ⟨hform, hitems⟩ := mem_of_required? (hall extra)
      have hother : form.read (s ++ extra) ≠ none := by
        rw [Form.read_eq_map, hitems]
        exact Option.some_ne_none _
      -- The first form could read the longer body, were it not that a later one does.
      have hskipped : Item.readAll Valuation.zero (s ++ extra) first.items = none := by
        have hnone := (hfirst form hform (s ++ extra)).resolve_right hother
        rw [Form.read_eq_map, Option.map_eq_none_iff] at hnone
        exact hnone
      rw [required?, hskipped]
      exact hall extra

end Format

/-! ## Kinds -/

namespace PayloadKind

/-- What stands behind the tag of a payload. -/
def format : PayloadKind → Format
  | instruction kind => kind.format
  | log kind => kind.format
  | snapshot kind => kind.format

/-- The fields that later versions append, in reading order. -/
def appended : PayloadKind → List Field
  | instruction kind => kind.appended
  | log kind => kind.reports.flatMap Variant.appended
  | snapshot kind => kind.appended

/-- The kinds that have such fields, with the types of these. -/
example : (all.filter (·.appended ≠ [])).map (fun kind => (kind, kind.appended.map Field.type)) =
    [(.instruction .pumpFunCreate, [.key]),
     (.log .pumpFunTrade, [.flag, .u64, .u64, .u64, .i64]),
     (.snapshot .pumpFunBondingCurve, [.key]),
     (.log .pumpSwapBuy, [.key, .u64, .u64]),
     (.log .pumpSwapSell, [.key, .u64, .u64]),
     (.snapshot .pumpSwapPool, [.key])] := by
  decide +kernel

variable {kind : PayloadKind} {form : Form}

/-- At most one form of a kind reads a body. -/
theorem format_exclusive (kind : PayloadKind) : kind.format.Exclusive := by
  cases kind with
  | instruction kind => exact kind.format_exclusive
  | log kind => exact kind.format_exclusive
  | snapshot kind =>
    rw [format, SnapshotKind.format_eq]
    exact List.pairwise_singleton _ _

/-- All forms of a kind end in the same appended fields. -/
theorem tail_of_mem_format (h : form ∈ kind.format) : form.tail = kind.appended := by
  have hall : ∀ form ∈ kind.format, form.tail = kind.appended := by
    cases kind with
    | instruction kind => cases kind <;> decide
    | log kind => cases kind <;> decide
    | snapshot kind => cases kind <;> decide
  exact hall form h

/-- None of the additions of a form can be filled from the bytes of another. -/
theorem orderly_of_mem_format (h : form ∈ kind.format) : Addition.Orderly form.additions := by
  have hall : ∀ form ∈ kind.format, Addition.Orderly form.additions := by
    cases kind with
    | instruction kind => cases kind <;> decide
    | log kind => cases kind <;> decide
    | snapshot kind => cases kind <;> decide
  exact hall form h

/-- Appended fields are fields of the variant. -/
theorem mem_fields_of_mem_appended (h : form ∈ kind.format) :
    ∀ f ∈ kind.appended, f ∈ form.variant.fields := by
  have hall : ∀ form ∈ kind.format, ∀ f ∈ kind.appended, f ∈ form.variant.fields := by
    cases kind with
    | instruction kind => cases kind <;> decide
    | log kind => cases kind <;> decide
    | snapshot kind => cases kind <;> decide
  exact hall form h

end PayloadKind

/-! ## Arrivals -/

/-- The way in which a payload arrives, with what comes beside the data. -/
inductive Arrival
  /-- As an instruction on accounts. -/
  | instruction (accounts : Accounts)
  /-- As a log payload, in a text log or in a call of a program to itself. -/
  | log
  /-- As the state of an account. -/
  | snapshot (account : Key)

/-- The required part of a payload: its kind, the form that it has, and the values of what has to be
there. -/
structure Opened where
  /-- The kind. -/
  kind : PayloadKind
  /-- The form. -/
  form : Form
  /-- The values. -/
  values : Valuation

namespace Arrival

/-- The event of a payload that arrives. -/
def event? (a : Arrival) (p : Protocol) (data : Bytes) (m : Metadata) : Option Event :=
  match a with
  | instruction accounts => Payload.instruction? p data accounts m
  | log => Payload.log? p data m
  | snapshot account => Payload.snapshot? p data account m

/-- The kind of a payload and its body. -/
def body? (a : Arrival) (p : Protocol) (data : Bytes) : Option (PayloadKind × Bytes) :=
  match a with
  | instruction _ => (InstructionKind.find? p data).map fun kind => (.instruction kind, data.drop 8)
  | log => (LogKind.find? p data).map fun kind => (.log kind, data.drop (LogKind.headerSize data))
  | snapshot _ => (SnapshotKind.find? p data).map fun kind => (.snapshot kind, data.drop 8)

/-- The kind of a payload. -/
def kind? (a : Arrival) (p : Protocol) (data : Bytes) : Option PayloadKind :=
  (a.body? p data).map Prod.fst

/-- Adds what comes beside the data. -/
def supply (a : Arrival) (kind : PayloadKind) (v : Valuation) : Valuation :=
  match a, kind with
  | instruction accounts, .instruction kind => accounts.fill v kind.slots
  | snapshot account, .snapshot _ => v.set .pubkey account
  | _, _ => v

/-- Reads the required part of a payload. -/
def opened? (a : Arrival) (p : Protocol) (data : Bytes) : Option (Opened × Bytes) :=
  (a.body? p data).bind fun q =>
    (q.1.format.required? q.2).map fun r => (⟨q.1, r.1.1, r.1.2⟩, r.2)

/-- The event of a payload whose required part is there, from what follows that part. -/
def complete (a : Arrival) (m : Metadata) (o : Opened) (rest : Bytes) : Event :=
  Event.ofValuation m o.form.variant
    (a.supply o.kind (readTail o.values rest o.form.additions))

/-- Of some data so many bytes are required: the shortest beginning that is understood. -/
structure Requires (a : Arrival) (p : Protocol) (m : Metadata) (data : Bytes) (n : Nat) :
    Prop where
  /-- There are so many bytes. -/
  le_length : n ≤ data.length
  /-- They are understood. -/
  understood : (a.event? p (data.take n) m).isSome
  /-- Fewer are not. -/
  shortest : ∀ j < n, a.event? p (data.take j) m = none

variable {a : Arrival} {p : Protocol} {data rest : Bytes} {m : Metadata} {o : Opened}
  {kind : PayloadKind} {n : Nat}

/-! ## The required part -/

/-- A kind that is found by its tag is found, too, with more data behind, and only the body gets
longer. -/
theorem prefixStable_tagged {κ : Type} {find? : Bytes → Option κ} {known : κ → Prop}
    {tag : κ → Tag}
    (hfind : ∀ data kind, find? data = some kind ↔ known kind ∧ (tag kind).bytes <+: data)
    (wrap : κ → PayloadKind) :
    PrefixStable fun data => (find? data).map fun kind => (wrap kind, data.drop 8) := by
  intro data found body h
  obtain ⟨kind, hkind, e⟩ := Option.map_eq_some_iff.1 h
  cases e
  obtain ⟨hknown, body, rfl⟩ := (hfind data kind).1 hkind
  have hdrop : ∀ more, ((tag kind).bytes ++ more).drop 8 = more :=
    fun more => List.drop_left' (tag kind).length_eq
  refine ⟨(tag kind).bytes, by rw [hdrop], fun more => ?_⟩
  show (find? ((tag kind).bytes ++ more)).map _ = some (wrap kind, more)
  rw [(hfind _ kind).2 ⟨hknown, List.prefix_append _ _⟩, Option.map_some, hdrop]

/-- More data behind leave the kind of a payload as it is and only lengthen the body. -/
theorem prefixStable_body? (a : Arrival) (p : Protocol) : PrefixStable (a.body? p) := by
  cases a with
  | instruction accounts =>
    exact prefixStable_tagged (fun _ _ => InstructionKind.find?_eq_some_iff) .instruction
  | snapshot account =>
    exact prefixStable_tagged (fun _ _ => SnapshotKind.find?_eq_some_iff) .snapshot
  | log =>
    -- The tag may stand behind that of a call of a program to itself.
    intro data found body h
    obtain ⟨kind, hkind, e⟩ := Option.map_eq_some_iff.1 h
    cases e
    obtain ⟨head, hdata, -, hform⟩ := LogKind.exists_header hkind
    refine ⟨head, hdata, fun more => ?_⟩
    obtain ⟨hfind, hsize⟩ := LogKind.find?_header hform more
    rw [body?, ← (LogKind.find?_eq_some_iff.1 hkind).1, hfind, Option.map_some, hsize,
      List.drop_left]

/-- The required part is the same whatever follows it. -/
theorem prefixStable_opened? (a : Arrival) (p : Protocol) : PrefixStable (a.opened? p) := by
  have hrequired : ∀ kind : PayloadKind, PrefixStable fun body =>
      (kind.format.required? body).map fun r => ((⟨kind, r.1.1, r.1.2⟩ : Opened), r.2) :=
    fun kind => (Format.prefixStable_required? kind.format_exclusive).map
      fun q : Form × Valuation => (⟨kind, q.1, q.2⟩ : Opened)
  exact (prefixStable_body? a p).bind hrequired

/-- The event of a payload is its required part together with what follows. -/
theorem event?_eq_map (a : Arrival) (p : Protocol) (data : Bytes) (m : Metadata) :
    a.event? p data m = (a.opened? p data).map fun q => a.complete m q.1 q.2 := by
  have hformat : ∀ (format : Format) (body : Bytes) (event : Variant × Valuation → Event),
      (format.read body).map event = (format.required? body).map fun r =>
        event (r.1.1.variant, readTail r.1.2 r.2 r.1.1.additions) := by
    intro format body event
    rw [Format.read_eq_map_required?, Option.map_map]
    rfl
  cases a with
  | instruction accounts =>
    rw [event?, opened?, body?, Payload.instruction?]
    cases InstructionKind.find? p data with
    | none => rfl
    | some kind =>
      show kind.event? (data.drop 8) accounts m = _
      rw [InstructionKind.event?, hformat, Option.map_some, Option.bind_some, Option.map_map]
      rfl
  | log =>
    rw [event?, opened?, body?, Payload.log?]
    cases LogKind.find? p data with
    | none => rfl
    | some kind =>
      show kind.event? (data.drop (LogKind.headerSize data)) m = _
      rw [LogKind.event?, hformat, Option.map_some, Option.bind_some, Option.map_map]
      rfl
  | snapshot account =>
    rw [event?, opened?, body?, Payload.snapshot?]
    cases SnapshotKind.find? p data with
    | none => rfl
    | some kind =>
      show kind.event? (data.drop 8) account m = _
      rw [SnapshotKind.event?, hformat, Option.map_some, Option.bind_some, Option.map_map]
      rfl

/-- A payload whose required part is there has an event, whatever follows. -/
theorem event?_of_opened? (h : a.opened? p data = some (o, rest)) (m : Metadata) :
    a.event? p data m = some (a.complete m o rest) := by
  rw [event?_eq_map, h, Option.map_some]

/-- A payload that has an event has its required part. -/
theorem exists_opened?_of_event? {e : Event} (h : a.event? p data m = some e) :
    ∃ o rest, a.opened? p data = some (o, rest) ∧ a.complete m o rest = e := by
  rw [event?_eq_map] at h
  obtain ⟨⟨o, rest⟩, hopened, he⟩ := Option.map_eq_some_iff.1 h
  exact ⟨o, rest, hopened, he⟩

/-- A payload without its required part has no event. -/
theorem event?_eq_none_of_opened? (h : a.opened? p data = none) : a.event? p data m = none := by
  rw [event?_eq_map, h, Option.map_none]

/-- All data but what is left are required. -/
theorem requires_of_opened? (h : a.opened? p data = some (o, rest)) (m : Metadata) :
    a.Requires p m data (data.length - rest.length) := by
  obtain ⟨s, rfl, hs⟩ := prefixStable_opened? a p data o rest h
  have hlength : (s ++ rest).length - rest.length = s.length := by
    rw [List.length_append, Nat.add_sub_cancel]
  have hopened : a.opened? p s = some (o, []) := by
    rw [← hs [], List.append_nil]
  rw [hlength]
  refine ⟨?_, ?_, fun j hj => event?_eq_none_of_opened? ?_⟩
  · rw [List.length_append]
    exact Nat.le_add_right _ _
  · rw [List.take_left, event?_of_opened? hopened]
    rfl
  · exact (prefixStable_opened? a p).eq_none_of_lt h (by rw [List.length_append]; omega)

end Arrival

end DexFeed
