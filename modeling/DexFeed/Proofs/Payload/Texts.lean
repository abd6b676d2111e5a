import DexFeed.Proofs.Payload.Arrival

/-!
# Texts are quoted

A text in an event is not made up: its bytes stand somewhere in the data from which the event was
decoded, one after the other. `Valuation.Quotes` says so of all fields at once, and every step of
reading keeps it. The only values that do not come out of the data are those that the kind of a
payload decides, the accounts of an instruction and the key of an account, and none of these is a
text.
-/

namespace DexFeed

/-- The text that a value is, if its type is that of texts. -/
def WireType.text? : (t : WireType) → t.Value → Option String
  | text, s => some s
  | _, _ => none

/-- The text in a field, if the field holds one. -/
def Valuation.text? (v : Valuation) (f : Field) : Option String :=
  f.type.text? (v f)

/-- The text in a field of an event, if the field holds one. -/
def Event.text? (e : Event) (f : Field) : Option String :=
  e.get.text? f

/-- The bytes of every text stand in some data. -/
def Valuation.Quotes (v : Valuation) (data : Bytes) : Prop :=
  ∀ f s, v.text? f = some s → Utf8.encode s <:+: data

/-! ## Values -/

namespace WireType

variable {t : WireType} {x : t.Value} {s : String} {bs rest : Bytes}

/-- A value of any other type is no text. -/
theorem text?_eq_none (h : t ≠ text) (x : t.Value) : t.text? x = none := by
  cases t with
  | text => contradiction
  | _ => rfl

/-- A value that is nothing but another under an equal type is the same text. -/
theorem text?_cast {t' : WireType} (h : t = t') (x : t.Value) : t'.text? (h ▸ x) = t.text? x := by
  subst h
  rfl

/-- A field that was never filled in holds no bytes. -/
theorem encode_of_text?_zero (h : t.text? t.zero = some s) : Utf8.encode s = [] := by
  cases t with
  | text =>
    cases h
    rfl
  | _ => contradiction

/-- The bytes of a text stand where it was read. -/
theorem infix_of_parse (h : t.parse bs = some (x, rest)) (hx : t.text? x = some s) :
    Utf8.encode s <:+: bs := by
  cases t with
  | text =>
    cases hx
    obtain ⟨-, hbs⟩ := parseText_eq_some_iff.1 h
    exact ⟨_, rest, hbs.symm⟩
  | _ => contradiction

end WireType

namespace Valuation

variable {v : Valuation} {data : Bytes} {f : Field}

/-- An empty text stands anywhere. -/
theorem quotes_zero (data : Bytes) : zero.Quotes data := by
  intro f s h
  rw [WireType.encode_of_text?_zero h]
  exact List.nil_infix

/-- A field may be changed to a value that is quoted. -/
theorem Quotes.set (h : v.Quotes data) {x : f.type.Value}
    (hx : ∀ s, f.type.text? x = some s → Utf8.encode s <:+: data) : (v.set f x).Quotes data := by
  intro g s hs
  by_cases hg : f = g
  · subst hg
    rw [text?, set_self] at hs
    exact hx s hs
  · rw [text?, set_of_ne hg] at hs
    exact h g s hs

/-- A field that holds no text may be changed. -/
theorem Quotes.set_of_ne (h : v.Quotes data) (hf : f.type ≠ .text) (x : f.type.Value) :
    (v.set f x).Quotes data := by
  refine h.set fun s hs => ?_
  rw [WireType.text?_eq_none hf] at hs
  contradiction

/-- A text that is read off a part of the data stands in the data. -/
theorem Quotes.set_of_parse (h : v.Quotes data) {bs rest : Bytes} (hbs : bs <:+: data)
    {x : f.type.Value} (hparse : f.type.parse bs = some (x, rest)) : (v.set f x).Quotes data :=
  h.set fun _ hs => (WireType.infix_of_parse hparse hs).trans hbs

end Valuation

/-! ## Forms -/

variable {v w : Valuation} {bs rest data : Bytes}

/-- An item that decides a text by itself. -/
def Item.Dictates (item : Item) : Prop :=
  ∃ e ∈ item.gives, e.1.type = .text

instance (item : Item) : Decidable item.Dictates :=
  inferInstanceAs (Decidable (∃ e ∈ item.gives, e.1.type = .text))

namespace Item

variable {item : Item} {items : List Item}

/-- An item that dictates no text only quotes the data. -/
theorem quotes_of_read (h : item.read v bs = some (w, rest)) (hitem : ¬item.Dictates)
    (hbs : bs <:+: data) (hv : v.Quotes data) : w.Quotes data := by
  cases item with
  | field f =>
    obtain ⟨⟨x, left⟩, hx, e⟩ := Option.bind_eq_some_iff.1 h
    cases e
    exact hv.set_of_parse hbs hx
  | unused t =>
    obtain ⟨⟨x, left⟩, hx, e⟩ := Option.bind_eq_some_iff.1 h
    cases e
    exact hv
  | exactly f x =>
    obtain ⟨⟨y, left⟩, hy, e⟩ := Option.bind_eq_some_iff.1 h
    by_cases hyx : y = x
    · simp only [hyx, if_true] at e
      cases e
      rw [hyx] at hy
      exact hv.set_of_parse hbs hy
    · simp only [hyx, if_false, reduceCtorEq] at e
  | byte b =>
    cases bs with
    | nil => contradiction
    | cons c left =>
      by_cases hc : c = b
      · simp only [read, if_pos hc, Option.some.injEq, Prod.mk.injEq] at h
        exact h.1 ▸ hv
      · simp only [read, if_neg hc, reduceCtorEq] at h
  | given f x =>
    cases h
    have hf : f.type ≠ .text := fun htext => hitem ⟨⟨f, x⟩, List.mem_cons_self, htext⟩
    exact hv.set_of_ne hf x
  | copied target source same =>
    cases h
    refine hv.set fun s hs => ?_
    rw [WireType.text?_cast] at hs
    exact hv source s hs

/-- Items that dictate no text only quote the data. -/
theorem quotes_of_readAll (h : readAll v bs items = some (w, rest))
    (hitems : ∀ item ∈ items, ¬item.Dictates) (hbs : bs <:+: data) (hv : v.Quotes data) :
    w.Quotes data := by
  induction items generalizing v bs with
  | nil =>
    cases h
    exact hv
  | cons item items ih =>
    obtain ⟨hitem, hmore⟩ := List.forall_mem_cons.1 hitems
    obtain ⟨⟨mid, left⟩, hread, hrest⟩ := Option.bind_eq_some_iff.1 h
    obtain ⟨s, rfl, -⟩ := prefixStable_read item v bs mid left hread
    have hleft : left <:+: data := (List.suffix_append s left).isInfix.trans hbs
    exact ih hrest hmore hleft (quotes_of_read hread hitem hbs hv)

end Item

/-- Additions only quote the data. -/
theorem quotes_readTail (additions : List Addition) (hbs : bs <:+: data) (hv : v.Quotes data) :
    (readTail v bs additions).Quotes data := by
  induction additions generalizing v bs with
  | nil => exact hv
  | cons a additions ih =>
    rw [readTail]
    cases hparse : a.field.type.parse bs with
    | none =>
      by_cases hleads : a.leads = true
      · simp only [if_pos hleads]
        exact hv
      · simp only [if_neg hleads]
        exact ih hbs hv
    | some p =>
      obtain ⟨s, rfl, -⟩ := WireType.prefixStable_parse a.field.type bs p.1 p.2 hparse
      have hleft : p.2 <:+: data := (List.suffix_append s p.2).isInfix.trans hbs
      exact ih hleft (hv.set_of_parse hbs hparse)

/-! ## Payloads -/

/-- No kind of payload decides a text. -/
theorem PayloadKind.not_dictates_of_mem_format {kind : PayloadKind} {form : Form}
    (h : form ∈ kind.format) : ∀ item ∈ form.items, ¬item.Dictates := by
  have hall : ∀ form ∈ kind.format, ∀ item ∈ form.items, ¬item.Dictates := by
    cases kind with
    | instruction kind => cases kind <;> decide
    | log kind => cases kind <;> decide
    | snapshot kind => cases kind <;> decide
  exact hall form h

/-- The accounts of an instruction are no texts. -/
theorem Accounts.quotes_fill (accounts : Accounts) (slots : List Slot) (hv : v.Quotes data) :
    (accounts.fill v slots).Quotes data := by
  induction slots generalizing v with
  | nil => exact hv
  | cons slot slots ih =>
    have hkey : slot.field.type ≠ .text := by
      rw [slot.isKey]
      decide
    exact ih (hv.set_of_ne hkey _)

/-- What comes beside the data is no text. -/
theorem Arrival.quotes_supply (a : Arrival) (kind : PayloadKind) (hv : v.Quotes data) :
    (a.supply kind v).Quotes data := by
  cases a with
  | instruction accounts =>
    cases kind with
    | instruction kind => exact accounts.quotes_fill kind.slots hv
    | log kind => exact hv
    | snapshot kind => exact hv
  | log => exact hv
  | snapshot account =>
    cases kind with
    | instruction kind => exact hv
    | log kind => exact hv
    | snapshot kind =>
      have hkey : Field.pubkey.type ≠ .text := by decide
      exact hv.set_of_ne hkey account

/-- An event has no texts but those of its values. -/
theorem Event.quotes_ofValuation (m : Metadata) (variant : Variant) (hv : v.Quotes data) :
    (Event.ofValuation m variant v).get.Quotes data := by
  intro f s hs
  rw [Valuation.text?, Event.get_ofValuation] at hs
  by_cases hf : f ∈ variant.fields
  · rw [if_pos hf] at hs
    exact hv f s hs
  · rw [if_neg hf] at hs
    exact Valuation.quotes_zero data f s hs

/-- Every text of an event is quoted from the data that it was decoded from. -/
theorem Arrival.quotes_of_event? {a : Arrival} {p : Protocol} {m : Metadata} {e : Event}
    (h : a.event? p data m = some e) : e.get.Quotes data := by
  obtain ⟨o, rest, hopened, rfl⟩ := exists_opened?_of_event? h
  obtain ⟨q, hbody, hrequired⟩ := Option.bind_eq_some_iff.1 hopened
  obtain ⟨⟨⟨form, values⟩, left⟩, hform, e⟩ := Option.map_eq_some_iff.1 hrequired
  cases e
  obtain ⟨hmem, hitems⟩ := Format.mem_of_required? hform
  obtain ⟨head, rfl, -⟩ := prefixStable_body? a p data q.1 q.2 hbody
  obtain ⟨s, hs, -⟩ := Item.prefixStable_readAll form.items _ q.2 values left hitems
  have hfront : q.2 <:+: head ++ q.2 := (List.suffix_append head q.2).isInfix
  have hbehind : left <:+: q.2 := by
    rw [hs]
    exact (List.suffix_append s left).isInfix
  have hvalues : values.Quotes (head ++ q.2) :=
    Item.quotes_of_readAll hitems (PayloadKind.not_dictates_of_mem_format hmem) hfront
      (Valuation.quotes_zero _)
  exact Event.quotes_ofValuation m form.variant
    (a.quotes_supply q.1 (quotes_readTail form.additions (hbehind.trans hfront) hvalues))

end DexFeed
