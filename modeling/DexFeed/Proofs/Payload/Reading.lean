import DexFeed.Payload.Form
import DexFeed.Proofs.Wire.Spelling

/-!
# What a form reads

A form reads a body item by item. Here a body is described without reading it: a list of parameters
says what stands in it, one part after the other, and `Valuation.Spells` says which byte strings
write the values of fields down in that order. A form reads a body exactly when the body begins with
such a string, and the fields then hold the values that it spells. Where a format has several forms,
at most one of them reads a body, so their order does not matter.
-/

namespace DexFeed

/-- A part of a body. -/
inductive Parameter
  /-- The value of a field. -/
  | field (f : Field)
  /-- A value of a type that no field keeps. -/
  | unkept (t : WireType)
  /-- A byte that is the same in every body. -/
  | constant (b : UInt8)
deriving DecidableEq

/-- The byte strings that may stand for a part when the fields have the values of a valuation. -/
def Parameter.Spells (v : Valuation) : Parameter → Bytes → Prop
  | field f, s => f.type.Spells (v f) s
  | unkept t, s => ∃ x, t.Spells x s
  | constant b, s => s = [b]

/-- A field together with a value for it. -/
abbrev Entry : Type :=
  (f : Field) × f.type.Value

namespace Valuation

/-- Whether the fields of entries have the values given there. -/
def Has (v : Valuation) (entries : List Entry) : Prop :=
  ∀ e ∈ entries, v e.1 = e.2

/-- The byte strings that may stand for parts, one after the other. -/
def Spells (v : Valuation) : List Parameter → Bytes → Prop
  | [], s => s = []
  | p :: ps, s => ∃ s₁ s₂, s = s₁ ++ s₂ ∧ p.Spells v s₁ ∧ v.Spells ps s₂

/-- Whether every part has a spelling. -/
def Fits (v : Valuation) (ps : List Parameter) : Prop :=
  ∀ f, .field f ∈ ps → f.type.Fits (v f)

/-- A spelling of parts, in which a value that no field keeps is zero. -/
def spell (v : Valuation) (ps : List Parameter) : Bytes :=
  ps.flatMap fun
    | .field f => f.type.spell (v f)
    | .unkept t => t.spell t.zero
    | .constant b => [b]

/-- The valuation that keeps the values of some fields and fills nothing else in. -/
def only (v : Valuation) (fields : List Field) : Valuation :=
  fun f => if f ∈ fields then v f else f.type.zero

variable {v w : Valuation} {ps qs : List Parameter} {s : Bytes} {entries more : List Entry}

/-- Entries are had together when each part is had. -/
theorem has_append : v.Has (entries ++ more) ↔ v.Has entries ∧ v.Has more :=
  List.forall_mem_append

/-- Only the fields of the entries matter. -/
theorem Has.congr (h : v.Has entries) (agree : ∀ e ∈ entries, w e.1 = v e.1) : w.Has entries :=
  fun e he => (agree e he).trans (h e he)

/-- Parts one after the other are spelled by strings one after the other. -/
theorem spells_append :
    v.Spells (ps ++ qs) s ↔ ∃ s₁ s₂, s = s₁ ++ s₂ ∧ v.Spells ps s₁ ∧ v.Spells qs s₂ := by
  induction ps generalizing s with
  | nil =>
    constructor
    · intro h
      exact ⟨[], s, rfl, rfl, h⟩
    · rintro ⟨s₁, s₂, rfl, rfl, h⟩
      exact h
  | cons p ps ih =>
    constructor
    · rintro ⟨a, b, rfl, hp, hrest⟩
      obtain ⟨c, d, rfl, hps, hqs⟩ := ih.1 hrest
      exact ⟨a ++ c, d, (List.append_assoc a c d).symm, ⟨a, c, rfl, hp, hps⟩, hqs⟩
    · rintro ⟨s₁, d, rfl, ⟨a, c, rfl, hp, hps⟩, hqs⟩
      exact ⟨a, c ++ d, List.append_assoc a c d, hp, ih.2 ⟨c, d, rfl, hps, hqs⟩⟩

/-- The string that `spell` writes is a spelling wherever there is one. -/
theorem spells_spell (h : v.Fits ps) : v.Spells ps (v.spell ps) := by
  induction ps with
  | nil => rfl
  | cons p ps ih =>
    have later : v.Spells ps (v.spell ps) := ih fun f hf => h f (List.mem_cons_of_mem p hf)
    refine ⟨_, v.spell ps, List.flatMap_cons, ?_, later⟩
    cases p with
    | field f => exact WireType.spells_spell (h f List.mem_cons_self)
    | unkept t => exact ⟨t.zero, WireType.spells_spell t.fits_zero⟩
    | constant b => rfl

/-- Only the fields that are parts matter to a spelling. -/
theorem Spells.congr (h : v.Spells ps s) (agree : ∀ f, .field f ∈ ps → w f = v f) :
    w.Spells ps s := by
  induction ps generalizing s with
  | nil => exact h
  | cons p ps ih =>
    obtain ⟨s₁, s₂, rfl, hp, hps⟩ := h
    have later : w.Spells ps s₂ := ih hps fun f hf => agree f (List.mem_cons_of_mem p hf)
    refine ⟨s₁, s₂, rfl, ?_, later⟩
    cases p with
    | field f =>
      have same : w f = v f := agree f List.mem_cons_self
      show f.type.Spells (w f) s₁
      rw [same]
      exact hp
    | unkept t => exact hp
    | constant b => exact hp

end Valuation

namespace Item

/-- What stands in a body where an item is carried out. -/
def reads : Item → List Parameter
  | field f => [.field f]
  | unused t => [.unkept t]
  | exactly f _ => [.field f]
  | byte b => [.constant b]
  | given _ _ => []
  | copied _ _ _ => []

/-- The field that an item changes. -/
def fills : Item → List Field
  | field f => [f]
  | exactly f _ => [f]
  | given f _ => [f]
  | copied target _ _ => [target]
  | unused _ => []
  | byte _ => []

/-- The field whose value an item decides for good; a copied value may still be replaced. -/
def settles : Item → List Field
  | field f => [f]
  | exactly f _ => [f]
  | given f _ => [f]
  | _ => []

/-- The value that has to stand in the body. -/
def demands : Item → List Entry
  | exactly f x => [⟨f, x⟩]
  | _ => []

/-- The value that the kind of payload decides. -/
def gives : Item → List Entry
  | given f x => [⟨f, x⟩]
  | _ => []

/-- No later item changes the field that an earlier one has settled. -/
def Steady (items : List Item) : Prop :=
  items.Pairwise fun a b => ∀ f ∈ a.settles, f ∉ b.fills

instance (items : List Item) : Decidable (Steady items) :=
  inferInstanceAs (Decidable (items.Pairwise fun a b => ∀ f ∈ a.settles, f ∉ b.fills))

/-- What an item changes is untouched by the items behind it. -/
theorem Steady.not_mem_fills {item : Item} {items : List Item} (h : Steady (item :: items))
    {f : Field} (hf : f ∈ item.settles) : f ∉ items.flatMap fills := by
  intro hmem
  obtain ⟨later, hlater, hfills⟩ := List.mem_flatMap.1 hmem
  exact (List.pairwise_cons.1 h).1 later hlater f hf hfills

/-- A field that is read is settled. -/
theorem mem_settles_of_mem_reads {item : Item} {f : Field} (h : .field f ∈ item.reads) :
    f ∈ item.settles := by
  cases item <;> simp_all [reads, settles]

/-- A field of which a value is demanded is settled. -/
theorem mem_settles_of_mem_demands {item : Item} {e : Entry} (h : e ∈ item.demands) :
    e.1 ∈ item.settles := by
  cases item <;> simp_all [demands, settles]

/-- A field that is given a value is settled. -/
theorem mem_settles_of_mem_gives {item : Item} {e : Entry} (h : e ∈ item.gives) :
    e.1 ∈ item.settles := by
  cases item <;> simp_all [gives, settles]

/-- A settled field is filled in. -/
theorem mem_fills_of_mem_settles {item : Item} {f : Field} (h : f ∈ item.settles) :
    f ∈ item.fills := by
  cases item <;> simp_all [settles, fills]

variable {item : Item} {items : List Item} {u v w : Valuation} {bs s rest : Bytes}

/-! ## One item -/

/-- What an item has read stood at the front of the body, and the item changes no other field. -/
theorem spells_of_read (h : item.read v bs = some (w, rest)) :
    (∃ s, bs = s ++ rest ∧ w.Spells item.reads s) ∧ w.Has item.demands ∧ w.Has item.gives ∧
      ∀ f ∉ item.fills, w f = v f := by
  have alone : ∀ {p : Parameter} {s : Bytes}, p.Spells w s → w.Spells [p] s :=
    fun hp => ⟨_, [], (List.append_nil _).symm, hp, rfl⟩
  have nothing : w.Has [] := List.forall_mem_nil _
  cases item with
  | field f =>
    obtain ⟨⟨x, left⟩, hx, e⟩ := Option.bind_eq_some_iff.1 h
    cases e
    obtain ⟨s, hs, hbs⟩ := WireType.parse_eq_some_iff.1 hx
    have hf : (v.set f x) f = x := Valuation.set_self v f x
    refine ⟨⟨s, hbs, alone (p := .field f) ?_⟩, nothing, nothing, fun g hg => ?_⟩
    · show f.type.Spells ((v.set f x) f) s
      rw [hf]
      exact hs
    · exact Valuation.set_of_ne fun e => hg (e ▸ List.mem_cons_self)
  | unused t =>
    obtain ⟨⟨x, left⟩, hx, e⟩ := Option.bind_eq_some_iff.1 h
    cases e
    obtain ⟨s, hs, hbs⟩ := WireType.parse_eq_some_iff.1 hx
    exact ⟨⟨s, hbs, alone (p := .unkept t) ⟨x, hs⟩⟩, nothing, nothing, fun _ _ => rfl⟩
  | exactly f x =>
    obtain ⟨⟨y, left⟩, hy, e⟩ := Option.bind_eq_some_iff.1 h
    by_cases hyx : y = x
    · simp only [hyx, if_true] at e
      cases e
      obtain ⟨s, hs, hbs⟩ := WireType.parse_eq_some_iff.1 hy
      have hf : (v.set f x) f = x := Valuation.set_self v f x
      refine ⟨⟨s, hbs, alone (p := .field f) ?_⟩, List.forall_mem_singleton.2 hf, nothing,
        fun g hg => ?_⟩
      · show f.type.Spells ((v.set f x) f) s
        rw [hf, ← hyx]
        exact hs
      · exact Valuation.set_of_ne fun e => hg (e ▸ List.mem_cons_self)
    · simp only [hyx, if_false, reduceCtorEq] at e
  | byte b =>
    cases bs with
    | nil => contradiction
    | cons c left =>
      by_cases hc : c = b
      · simp only [read, if_pos hc, Option.some.injEq, Prod.mk.injEq] at h
        obtain ⟨rfl, rfl⟩ := h
        exact ⟨⟨[b], by rw [hc]; rfl, alone (p := .constant b) rfl⟩, nothing, nothing,
          fun _ _ => rfl⟩
      · simp only [read, if_neg hc, reduceCtorEq] at h
  | given f x =>
    cases h
    exact ⟨⟨[], rfl, rfl⟩, nothing, List.forall_mem_singleton.2 (Valuation.set_self v f x),
      fun g hg => Valuation.set_of_ne fun e => hg (e ▸ List.mem_cons_self)⟩
  | copied target source same =>
    cases h
    exact ⟨⟨[], rfl, rfl⟩, nothing, nothing,
      fun g hg => Valuation.set_of_ne fun e => hg (e ▸ List.mem_cons_self)⟩

/-- An item can be carried out where its values stand, and takes just those. -/
theorem read_of_spells (hs : u.Spells item.reads s) (hd : u.Has item.demands) (v : Valuation)
    (rest : Bytes) :
    ∃ w, item.read v (s ++ rest) = some (w, rest) ∧ ∀ f, .field f ∈ item.reads → w f = u f := by
  have alone : ∀ {p : Parameter}, u.Spells [p] s → p.Spells u s := by
    rintro p ⟨s₁, s₂, rfl, hp, rfl⟩
    rw [List.append_nil]
    exact hp
  -- The demands are needed for `exactly` alone: there the spelling could be of another value.
  cases item with
  | field f =>
    have parsed : f.type.parse (s ++ rest) = some (u f, rest) :=
      WireType.parse_eq_some_iff.2 ⟨s, alone (p := .field f) hs, rfl⟩
    refine ⟨v.set f (u f), by rw [read, parsed]; rfl, fun g hg => ?_⟩
    cases List.mem_singleton.1 hg
    exact Valuation.set_self v f (u f)
  | unused t =>
    obtain ⟨x, hx⟩ := alone (p := .unkept t) hs
    have parsed : t.parse (s ++ rest) = some (x, rest) :=
      WireType.parse_eq_some_iff.2 ⟨s, hx, rfl⟩
    exact ⟨v, by rw [read, parsed]; rfl, fun g hg => nomatch List.mem_singleton.1 hg⟩
  | exactly f x =>
    have parsed : f.type.parse (s ++ rest) = some (u f, rest) :=
      WireType.parse_eq_some_iff.2 ⟨s, alone (p := .field f) hs, rfl⟩
    have hx : u f = x := hd ⟨f, x⟩ List.mem_cons_self
    refine ⟨v.set f x, by simp [read, parsed, hx], fun g hg => ?_⟩
    cases List.mem_singleton.1 hg
    rw [Valuation.set_self, hx]
  | byte b =>
    have hb : s = [b] := alone (p := .constant b) hs
    exact ⟨v, by rw [hb]; simp [read], fun g hg => nomatch List.mem_singleton.1 hg⟩
  | given f x =>
    have hnil : s = [] := hs
    exact ⟨v.set f x, by rw [hnil]; rfl, fun g hg => nomatch hg⟩
  | copied target source same =>
    have hnil : s = [] := hs
    exact ⟨v.set target (same ▸ v source), by rw [hnil]; rfl, fun g hg => nomatch hg⟩

/-! ## All items of a form -/

/-- What items have read stood at the front of the body, and they change no other field. -/
theorem spells_of_readAll (h : readAll v bs items = some (w, rest)) (steady : Steady items) :
    (∃ s, bs = s ++ rest ∧ w.Spells (items.flatMap reads) s) ∧ w.Has (items.flatMap demands) ∧
      w.Has (items.flatMap gives) ∧ ∀ f ∉ items.flatMap fills, w f = v f := by
  induction items generalizing v bs with
  | nil =>
    cases h
    exact ⟨⟨[], rfl, rfl⟩, List.forall_mem_nil _, List.forall_mem_nil _, fun _ _ => rfl⟩
  | cons item items ih =>
    obtain ⟨⟨mid, left⟩, hitem, hitems⟩ := Option.bind_eq_some_iff.1 h
    obtain ⟨⟨s, rfl, hs⟩, hd, hg, hframe⟩ := spells_of_read hitem
    obtain ⟨⟨s', rfl, hs'⟩, hd', hg', hframe'⟩ := ih hitems (List.pairwise_cons.1 steady).2
    -- The later items leave what this one has settled, so it reads the same at the end.
    have settled : ∀ f ∈ item.settles, w f = mid f := fun f hf =>
      hframe' f (steady.not_mem_fills hf)
    have spelled : w.Spells item.reads s :=
      hs.congr fun f hf => settled f (mem_settles_of_mem_reads hf)
    refine ⟨⟨s ++ s', (List.append_assoc s s' rest).symm, ?_⟩, ?_, ?_, ?_⟩
    · rw [List.flatMap_cons]
      exact Valuation.spells_append.2 ⟨s, s', rfl, spelled, hs'⟩
    · rw [List.flatMap_cons]
      exact Valuation.has_append.2
        ⟨hd.congr fun e he => settled e.1 (mem_settles_of_mem_demands he), hd'⟩
    · rw [List.flatMap_cons]
      exact Valuation.has_append.2
        ⟨hg.congr fun e he => settled e.1 (mem_settles_of_mem_gives he), hg'⟩
    · intro f hf
      rw [List.flatMap_cons, List.mem_append, not_or] at hf
      rw [hframe' f hf.2, hframe f hf.1]

/-- Items can be carried out where their values stand, and take just those. -/
theorem readAll_of_spells (steady : Steady items) (hs : u.Spells (items.flatMap reads) s)
    (hd : u.Has (items.flatMap demands)) (v : Valuation) (rest : Bytes) :
    ∃ w, readAll v (s ++ rest) items = some (w, rest) ∧
      ∀ f, .field f ∈ items.flatMap reads → w f = u f := by
  -- Each item reads its own part of the spelling, from whatever the items before it have filled in.
  induction items generalizing v s with
  | nil =>
    have hnil : s = [] := hs
    exact ⟨v, by rw [hnil]; rfl, fun _ hf => nomatch hf⟩
  | cons item items ih =>
    rw [List.flatMap_cons] at hs hd
    obtain ⟨s₁, s₂, rfl, hs₁, hs₂⟩ := Valuation.spells_append.1 hs
    obtain ⟨hd₁, hd₂⟩ := Valuation.has_append.1 hd
    have steady₂ : Steady items := (List.pairwise_cons.1 steady).2
    obtain ⟨mid, hmid, hvalue⟩ := read_of_spells hs₁ hd₁ v (s₂ ++ rest)
    obtain ⟨w, hw, hvalues⟩ := ih steady₂ hs₂ hd₂ mid
    obtain ⟨-, -, -, hframe⟩ := spells_of_readAll hw steady₂
    refine ⟨w, ?_, fun f hf => ?_⟩
    · rw [List.append_assoc, readAll, hmid]
      exact hw
    · rw [List.flatMap_cons, List.mem_append] at hf
      cases hf with
      | inl hf =>
        rw [hframe f (steady.not_mem_fills (mem_settles_of_mem_reads hf)), hvalue f hf]
      | inr hf => exact hvalues f hf

/-- Items are read one part after the other. -/
theorem readAll_append (v : Valuation) (bs : Bytes) (before after : List Item) :
    readAll v bs (before ++ after) =
      (readAll v bs before).bind fun p => readAll p.1 p.2 after := by
  induction before generalizing v bs with
  | nil => rfl
  | cons item before ih =>
    rw [List.cons_append, readAll, readAll]
    cases item.read v bs with
    | none => rfl
    | some p => exact ih p.1 p.2

end Item

/-! ## Additions -/

/-- Additions change no other field. -/
theorem readTail_of_not_mem {additions : List Addition} {f : Field}
    (h : f ∉ additions.map Addition.field) (v : Valuation) (bs : Bytes) :
    readTail v bs additions f = v f := by
  induction additions generalizing v bs with
  | nil => rfl
  | cons a additions ih =>
    rw [List.map_cons, List.mem_cons, not_or] at h
    unfold readTail
    cases a.field.type.parse bs with
    | none =>
      by_cases hleads : a.leads = true
      · simp only [if_pos hleads]
      · simp only [if_neg hleads]
        exact ih h.2 v bs
    | some p =>
      show readTail (v.set a.field p.1) p.2 additions f = v f
      rw [ih h.2, Valuation.set_of_ne (Ne.symm h.1)]

/-- Where all additions stand, all of them are read. -/
theorem readTail_of_spells {additions : List Addition}
    (nodup : (additions.map Addition.field).Nodup) {u : Valuation} {s : Bytes}
    (hs : u.Spells ((additions.map Addition.field).map .field) s) (v : Valuation) (rest : Bytes)
    {f : Field} (hf : f ∈ additions.map Addition.field) :
    readTail v (s ++ rest) additions f = u f := by
  induction additions generalizing v s with
  | nil => contradiction
  | cons a additions ih =>
    obtain ⟨s₁, s₂, rfl, ha, hs₂⟩ := hs
    obtain ⟨hnew, hnodup⟩ := List.nodup_cons.1 nodup
    have parsed : a.field.type.parse (s₁ ++ s₂ ++ rest) = some (u a.field, s₂ ++ rest) :=
      WireType.parse_eq_some_iff.2 ⟨s₁, ha, List.append_assoc s₁ s₂ rest⟩
    have step : readTail v (s₁ ++ s₂ ++ rest) (a :: additions) =
        readTail (v.set a.field (u a.field)) (s₂ ++ rest) additions := by
      rw [readTail, parsed]
    rw [step]
    cases List.mem_cons.1 hf with
    | inl hfa => rw [hfa, readTail_of_not_mem hnew, Valuation.set_self]
    | inr hf => exact ih hnodup hs₂ _ hf

namespace Form

/-- What stands in every body of a form. -/
def reads (form : Form) : List Parameter :=
  form.items.flatMap Item.reads

/-- The values that have to stand in the bodies of a form. -/
def demands (form : Form) : List Entry :=
  form.items.flatMap Item.demands

/-- The values that do not come from the body. -/
def gives (form : Form) : List Entry :=
  form.items.flatMap Item.gives

/-- The fields that a form changes. -/
def fills (form : Form) : List Field :=
  form.items.flatMap Item.fills ++ form.tail

/-- No field that is settled is changed later, and no optional field is read twice. -/
def Steady (form : Form) : Prop :=
  Item.Steady form.items ∧ (∀ item ∈ form.items, ∀ f ∈ item.settles, f ∉ form.tail) ∧
    form.tail.Nodup

instance (form : Form) : Decidable form.Steady :=
  inferInstanceAs (Decidable (_ ∧ _ ∧ _))

variable {form : Form} {body s : Bytes} {u v : Valuation}

/-- What a steady form has read is not read again behind the required part. -/
theorem Steady.not_mem_tail (steady : form.Steady) {f : Field} (h : .field f ∈ form.reads) :
    f ∉ form.tail := by
  obtain ⟨item, hitem, hf⟩ := List.mem_flatMap.1 h
  exact steady.2.1 item hitem f (Item.mem_settles_of_mem_reads hf)

/-- A form fills in the fields that it reads. -/
theorem mem_fills_of_mem_reads {f : Field} (h : .field f ∈ form.reads) : f ∈ form.fills := by
  obtain ⟨item, hitem, hf⟩ := List.mem_flatMap.1 h
  have hfills : f ∈ item.fills := Item.mem_fills_of_mem_settles (Item.mem_settles_of_mem_reads hf)
  exact List.mem_append_left _ (List.mem_flatMap.2 ⟨item, hitem, hfills⟩)

/-- A form fills in the fields that it is given. -/
theorem mem_fills_of_mem_gives {e : Entry} (h : e ∈ form.gives) : e.1 ∈ form.fills := by
  obtain ⟨item, hitem, he⟩ := List.mem_flatMap.1 h
  have hfills : e.1 ∈ item.fills := Item.mem_fills_of_mem_settles (Item.mem_settles_of_mem_gives he)
  exact List.mem_append_left _ (List.mem_flatMap.2 ⟨item, hitem, hfills⟩)

/-- A body that a form reads begins with a spelling of the values that the fields then have, and a
field that the form does not mention stays zero. -/
theorem spells_of_read (steady : form.Steady) (h : form.read body = some v) :
    (∃ s, s <+: body ∧ v.Spells form.reads s) ∧ v.Has form.demands ∧ v.Has form.gives ∧
      ∀ f ∉ form.fills, v f = f.type.zero := by
  obtain ⟨⟨w, rest⟩, hread, e⟩ := Option.bind_eq_some_iff.1 h
  cases e
  obtain ⟨⟨s, rfl, hs⟩, hd, hg, hframe⟩ := Item.spells_of_readAll hread steady.1
  -- The additions are read last, but a steady form has them touch nothing that is settled.
  have settled : ∀ item ∈ form.items, ∀ f ∈ item.settles, readTail w rest form.additions f = w f :=
    fun item hitem f hf => readTail_of_not_mem (steady.2.1 item hitem f hf) w rest
  refine ⟨⟨s, ⟨rest, rfl⟩, hs.congr fun f hf => ?_⟩, ?_, ?_, ?_⟩
  · exact readTail_of_not_mem (steady.not_mem_tail hf) w rest
  · refine hd.congr fun e he => ?_
    obtain ⟨item, hitem, hmem⟩ := List.mem_flatMap.1 he
    exact settled item hitem e.1 (Item.mem_settles_of_mem_demands hmem)
  · refine hg.congr fun e he => ?_
    obtain ⟨item, hitem, hmem⟩ := List.mem_flatMap.1 he
    exact settled item hitem e.1 (Item.mem_settles_of_mem_gives hmem)
  · intro f hf
    obtain ⟨hitems, htail⟩ := not_or.1 fun h => hf (List.mem_append.2 h)
    show readTail w rest form.additions f = f.type.zero
    rw [readTail_of_not_mem htail, hframe f hitems]
    rfl

/-- A form reads a body that begins with a spelling of its parts, and the fields get the values
spelled there; the optional fields do if they are spelled behind it. -/
theorem read_of_spells (steady : form.Steady) (hs : u.Spells form.reads s)
    (hd : u.Has form.demands) (rest : Bytes) :
    ∃ v, form.read (s ++ rest) = some v ∧ (∀ f, .field f ∈ form.reads → v f = u f) ∧
      ∀ s', u.Spells (form.tail.map .field) s' → s' <+: rest → ∀ f ∈ form.tail, v f = u f := by
  obtain ⟨w, hw, hvalues⟩ := Item.readAll_of_spells steady.1 hs hd Valuation.zero rest
  refine ⟨readTail w rest form.additions, by rw [read, hw]; rfl, fun f hf => ?_, ?_⟩
  · rw [readTail_of_not_mem (steady.not_mem_tail hf), hvalues f hf]
  · rintro s' hs' ⟨more, rfl⟩ f hf
    exact readTail_of_spells steady.2.2 hs' w more hf

/-- Two forms that begin alike and then part with items that never both succeed read no common
body. -/
theorem read_eq_none_or {before : List Item} {i j : Item} {is js : List Item} {form' : Form}
    (clash : ∀ v bs, i.read v bs = none ∨ j.read v bs = none)
    (hi : form.items = before ++ i :: is) (hj : form'.items = before ++ j :: js) (body : Bytes) :
    form.read body = none ∨ form'.read body = none := by
  cases hb : Item.readAll Valuation.zero body before with
  | none => exact .inl (by rw [read, hi, Item.readAll_append, hb]; rfl)
  | some p =>
    cases clash p.1 p.2 with
    | inl h => exact .inl (by rw [read, hi, Item.readAll_append, hb]; simp [Item.readAll, h])
    | inr h => exact .inr (by rw [read, hj, Item.readAll_append, hb]; simp [Item.readAll, h])

end Form

/-- One field cannot be required to have two values. -/
theorem Item.exactly_clash {f : Field} {x y : f.type.Value} (h : x ≠ y) (v : Valuation)
    (bs : Bytes) : (exactly f x).read v bs = none ∨ (exactly f y).read v bs = none := by
  cases hp : f.type.parse bs with
  | none => exact .inl (by simp [read, hp])
  | some p =>
    by_cases hx : p.1 = x
    · exact .inr (by simp [read, hp, hx, h])
    · exact .inl (by simp [read, hp, hx])

/-- One byte cannot be required to be two. -/
theorem Item.byte_clash {b c : UInt8} (h : b ≠ c) (v : Valuation) (bs : Bytes) :
    (byte b).read v bs = none ∨ (byte c).read v bs = none := by
  cases bs with
  | nil => exact .inl rfl
  | cons a bs =>
    by_cases hb : a = b
    · exact .inr (by simp [read, hb, h])
    · exact .inl (by simp [read, hb])

namespace Format

/-- No body is read by two forms of a format. -/
def Exclusive (format : Format) : Prop :=
  format.Pairwise fun a b => ∀ body, a.read body = none ∨ b.read body = none

/-- What a format gives, one of its forms gives. -/
theorem mem_of_read {format : Format} {body : Bytes} {variant : Variant} {v : Valuation}
    (h : format.read body = some (variant, v)) :
    ∃ form ∈ format, form.variant = variant ∧ form.read body = some v := by
  induction format with
  | nil => contradiction
  | cons form more ih =>
    rw [read] at h
    cases hf : form.read body with
    | some w =>
      rw [hf, Option.some.injEq, Prod.mk.injEq] at h
      exact ⟨form, List.mem_cons_self, h.1, by rw [hf, h.2]⟩
    | none =>
      rw [hf] at h
      obtain ⟨other, hm, hv⟩ := ih h
      exact ⟨other, List.mem_cons_of_mem _ hm, hv⟩

/-- What a form of an exclusive format gives, the format gives. -/
theorem read_of_mem {format : Format} (exclusive : format.Exclusive) {form : Form}
    (hform : form ∈ format) {body : Bytes} {v : Valuation} (h : form.read body = some v) :
    format.read body = some (form.variant, v) := by
  induction format with
  | nil => contradiction
  | cons first more ih =>
    obtain ⟨hfirst, hmore⟩ := List.pairwise_cons.1 exclusive
    cases List.mem_cons.1 hform with
    | inl heq =>
      subst heq
      simp only [read, h]
    | inr hmem =>
      have skipped : first.read body = none :=
        (hfirst form hmem body).resolve_right (by rw [h]; exact Option.some_ne_none v)
      simp only [read, skipped]
      exact ih hmore hmem

/-- What it means for a format to be described by the parts that stand in a body: there is a form
for each of the valuations that a variant admits, and it reads the parts that belong to them. -/
structure Follows (format : Format) (admits : Variant → Valuation → Prop)
    (parts : Variant → Valuation → List Parameter) : Prop where
  /-- No form loses what it has read. -/
  steady : ∀ form ∈ format, form.Steady
  /-- No body has two readings. -/
  exclusive : format.Exclusive
  /-- The demands of a form select its valuations, and it reads their parts. -/
  sound : ∀ form ∈ format, ∀ v, v.Has form.demands →
    admits form.variant v ∧ form.reads = parts form.variant v
  /-- The valuations that a variant admits have a form. -/
  complete : ∀ t v, admits t v → ∃ form ∈ format, form.variant = t ∧ v.Has form.demands

namespace Follows

variable {format : Format} {admits : Variant → Valuation → Prop}
  {parts : Variant → Valuation → List Parameter} {t : Variant} {u v : Valuation} {body s : Bytes}

/-- A body that is read begins with a spelling of the parts of the values that come out. -/
theorem spells_of_read (follows : format.Follows admits parts)
    (h : format.read body = some (t, v)) :
    ∃ form ∈ format, form.variant = t ∧ admits t v ∧ (∃ s, s <+: body ∧ v.Spells (parts t v) s) ∧
      form.reads = parts t v ∧ v.Has form.gives ∧ ∀ f ∉ form.fills, v f = f.type.zero := by
  obtain ⟨form, hform, rfl, hread⟩ := mem_of_read h
  obtain ⟨⟨s, hs, hspells⟩, hd, hg, hzero⟩ :=
    Form.spells_of_read (follows.steady form hform) hread
  obtain ⟨hadmits, hparts⟩ := follows.sound form hform v hd
  exact ⟨form, hform, rfl, hadmits, ⟨s, hs, hparts ▸ hspells⟩, hparts, hg, hzero⟩

/-- A body that begins with a spelling of the parts of admitted values is read, and the fields get
these values; the optional fields do if they are spelled behind it. -/
theorem read_of_spells (follows : format.Follows admits parts) (ha : admits t u)
    (hs : u.Spells (parts t u) s) (rest : Bytes) :
    ∃ form ∈ format, form.variant = t ∧ form.reads = parts t u ∧
      ∃ v, format.read (s ++ rest) = some (t, v) ∧ (∀ f, .field f ∈ parts t u → v f = u f) ∧
        v.Has form.gives ∧ (∀ f ∉ form.fills, v f = f.type.zero) ∧
        ∀ s', u.Spells (form.tail.map .field) s' → s' <+: rest → ∀ f ∈ form.tail, v f = u f := by
  obtain ⟨form, hform, rfl, hd⟩ := follows.complete t u ha
  have hparts : form.reads = parts form.variant u := (follows.sound form hform u hd).2
  have steady : form.Steady := follows.steady form hform
  obtain ⟨v, hv, hvalues, htail⟩ := Form.read_of_spells steady (hparts ▸ hs) hd rest
  obtain ⟨-, -, hg, hzero⟩ := Form.spells_of_read steady hv
  exact ⟨form, hform, rfl, hparts, v, read_of_mem follows.exclusive hform hv,
    hparts ▸ hvalues, hg, hzero, htail⟩

end Follows

end Format

end DexFeed
