import DexFeed.Proofs.Wire.Spelling
import DexFeed.Wire.Reader

/-!
# What a reader answers

A request has three outcomes. It is done, and the position has moved on by the bytes that were
taken; it is refused, which sets the latch; or it was optional and what it asks for is not there,
which changes nothing. `Answers` lists them, and everything else about runs of requests follows from
the list: the bytes stay the same, the position never moves back, it stays within the bytes once it
is there, and a reader whose latch is set stays as it is.
-/

namespace DexFeed

/-! ## Counts and what they count -/

/-- Each key takes 32 bytes. -/
theorem length_flatMap_bytes (ks : List Key) :
    (ks.flatMap Fixed.bytes).length = 32 * ks.length := by
  induction ks with
  | nil => rfl
  | cons k ks ih =>
    rw [List.flatMap_cons, List.length_append, ih, Fixed.length_eq, List.length_cons]
    omega

/-- More keys than there is room for cannot be read. -/
theorem parseKeys_eq_none {k : Nat} {bs : Bytes} (h : bs.length < 32 * k) :
    parseKeys k bs = none := by
  cases hparse : parseKeys k bs with
  | none => rfl
  | some p =>
    obtain ⟨hcount, hbs⟩ := parseKeys_eq_some_iff.1 hparse
    have hlength := congrArg List.length hbs
    rw [List.length_append, length_flatMap_bytes, hcount] at hlength
    omega

/-- A count is a number of four bytes. -/
theorem parseNat_eq_map (bs : Bytes) : parseNat 4 bs =
    (WireType.u32.parse bs).map fun (v, rest) => (UInt32.toNat v, rest) := by
  rw [WireType.parse, Option.map_map]
  cases hparse : parseNat 4 bs with
  | none => rfl
  | some p =>
    have hlt : p.1 < 2 ^ 32 := (parseNat_eq_some_iff.1 hparse).1
    have hback : (UInt32.ofNat p.1).toNat = p.1 := by
      rw [UInt32.toNat_ofNat']
      exact Nat.mod_eq_of_lt hlt
    show some p = some ((UInt32.ofNat p.1).toNat, p.2)
    rw [hback]

/-- A text or a list of keys is held by its spelling. -/
theorem Request.held_le_length {t : WireType} {whole : t.isWhole = true} {v : t.Value} {s : Bytes}
    (h : t.Spells v s) : (Request.value t whole).held v ≤ s.length := by
  cases t with
  | text =>
    obtain ⟨-, rfl⟩ := h
    have hlength : (WireType.text.spell v).length = 4 + (Utf8.encode v).length := by
      rw [WireType.spell, List.length_append, length_littleEndian]
    show (Utf8.encode v).length ≤ (WireType.text.spell v).length
    omega
  | keys =>
    obtain ⟨-, rfl⟩ := h
    have hlength : (WireType.keys.spell v).length = 4 + 32 * List.length v := by
      rw [WireType.spell, List.length_append, length_littleEndian, length_flatMap_bytes]
    show 32 * List.length v ≤ (WireType.keys.spell v).length
    omega
  | _ => exact Nat.zero_le _

namespace Reader

variable {r : Reader} {q : Request} {t : WireType} {left s : Bytes} {v : t.Value}

/-- A reader lies within its bytes unless its latch is set. -/
def Sound (r : Reader) : Prop :=
  r.failed = false → r.offset ≤ r.bytes.length

/-- A reader that starts past the end has its latch set. -/
theorem sound_start (bytes : Bytes) (offset : Nat) : (start bytes offset).Sound := by
  intro h
  exact Nat.le_of_not_lt (of_decide_eq_false h)

/-- The bytes left are as many as the reader says. -/
theorem length_rest (r : Reader) : r.rest.length = r.remaining := by
  rw [rest, List.length_drop, remaining]

/-- To fail a second time changes nothing. -/
theorem fail_of_failed (h : r.failed = true) : r.fail = r := by
  rw [fail, ← h]

/-! ## Reads -/

/-- What is behind a reader that was moved to the beginning of a final part. -/
theorem rest_moveTo (h : left <:+ r.rest) : (r.moveTo left).rest = left :=
  (List.suffix_iff_eq_drop.1 (h.trans (List.drop_suffix r.offset r.bytes))).symm

/-- A reader moves on by the bytes that were taken. -/
theorem moveTo_eq (sound : r.offset ≤ r.bytes.length) (h : r.rest = s ++ left) :
    r.moveTo left = { r with offset := r.offset + s.length } := by
  have hlength : r.remaining = s.length + left.length := by
    rw [← length_rest, h, List.length_append]
  have hoffset : r.bytes.length - left.length = r.offset + s.length := by
    rw [remaining] at hlength
    omega
  rw [moveTo, hoffset]

/-- What is left at a place leads back to the place. -/
theorem moveTo_rest {r' : Reader} (hbytes : r'.bytes = r.bytes) (hfailed : r'.failed = r.failed)
    (hoffset : r'.offset ≤ r'.bytes.length) : r.moveTo r'.rest = r' := by
  have hback : r.bytes.length - r'.rest.length = r'.offset := by
    rw [length_rest, remaining, ← hbytes]
    omega
  rw [moveTo, hback, ← hbytes, ← hfailed]

/-- A read returns the value that stands at the position. -/
theorem read_of_parse (live : r.failed = false) (h : t.parse r.rest = some (v, left)) :
    r.read t = (some v, r.moveTo left) := by
  rw [read, if_neg (Bool.not_eq_true _ ▸ live), h]

/-- A read is refused where no value stands at the position. -/
theorem read_of_refused (h : r.failed = false → t.parse r.rest = none) :
    r.read t = (none, r.fail) := by
  by_cases hfailed : r.failed = true
  · rw [read_of_failed hfailed, fail_of_failed hfailed]
  · rw [read, if_neg hfailed, h (Bool.eq_false_iff.2 hfailed)]

/-- An optional value that is there is read. -/
theorem readOptional_of_parse (live : r.failed = false) (h : t.parse r.rest = some (v, left)) :
    r.readOptional t = (some v, r.moveTo left) := by
  rw [readOptional, if_neg (Bool.not_eq_true _ ▸ live), h]

/-- An optional value that is not there, or is asked for once the latch is set, leaves the
reader. -/
theorem readOptional_of_refused (h : r.failed = false → t.parse r.rest = none) :
    r.readOptional t = (none, r) := by
  by_cases hfailed : r.failed = true
  · exact readOptional_of_failed hfailed
  · rw [readOptional, if_neg hfailed, h (Bool.eq_false_iff.2 hfailed)]

/-- Either a value stands at the position of a reader that has not failed, or there is nothing to
read. -/
theorem parse_cases (r : Reader) (t : WireType) :
    (∃ v left, r.failed = false ∧ t.parse r.rest = some (v, left)) ∨
      (r.failed = false → t.parse r.rest = none) := by
  cases hparse : t.parse r.rest with
  | none => exact .inr fun _ => rfl
  | some p =>
    cases hfailed : r.failed with
    | true => exact .inr fun h => absurd h Bool.noConfusion
    | false => exact .inl ⟨p.1, p.2, rfl, rfl⟩

/-! ## One answer -/

/-- The outcomes that a request can have. -/
inductive Answers (r : Reader) (q : Request) : Option q.Value × Reader → Prop
  /-- It is done, and it takes `n` of the bytes that are left. -/
  | done (v : q.Value) (n : Nat) (live : r.failed = false) (room : n ≤ r.remaining)
      (held : q.held v ≤ n) : Answers r q (some v, { r with offset := r.offset + n })
  /-- It is refused. -/
  | refused (required : q.isOptional = false) : Answers r q (none, r.fail)
  /-- What it asks for is not there. -/
  | absent (optional : q.isOptional = true) : Answers r q (none, r)

/-- Every request to a sound reader is done, refused or finds nothing. -/
theorem answers (sound : r.Sound) (q : Request) : Answers r q (r.answer q) := by
  cases q with
  | value t whole =>
    show Answers r (.value t whole) (r.read t)
    obtain ⟨v, left, live, hparse⟩ | hnone := r.parse_cases t
    · obtain ⟨s, hspells, hrest⟩ := WireType.parse_eq_some_iff.1 hparse
      have hroom : s.length ≤ r.remaining := by
        rw [← length_rest, hrest, List.length_append]
        omega
      rw [read_of_parse live hparse, moveTo_eq (sound live) hrest]
      exact .done v s.length live hroom (Request.held_le_length hspells)
    · rw [read_of_refused hnone]
      exact .refused rfl
  | optional t plain =>
    show Answers r (.optional t plain) (r.readOptional t)
    obtain ⟨v, left, live, hparse⟩ | hnone := r.parse_cases t
    · obtain ⟨s, -, hrest⟩ := WireType.parse_eq_some_iff.1 hparse
      have hroom : s.length ≤ r.remaining := by
        rw [← length_rest, hrest, List.length_append]
        omega
      rw [readOptional_of_parse live hparse, moveTo_eq (sound live) hrest]
      exact .done (q := .optional t plain) v s.length live hroom (Nat.zero_le _)
    · rw [readOptional_of_refused hnone]
      exact .absent rfl
  | skip n =>
    show Answers r (.skip n) (if (r.skip n.toNat).1 then some () else none, (r.skip n.toNat).2)
    by_cases hfailed : r.failed = true
    · rw [skip_of_failed hfailed, ← fail_of_failed hfailed]
      exact .refused rfl
    · rw [skip, if_neg hfailed]
      by_cases hroom : n.toNat ≤ r.remaining
      · rw [if_pos hroom]
        exact .done (q := .skip n) () n.toNat (Bool.eq_false_iff.2 hfailed) hroom (Nat.zero_le _)
      · rw [if_neg hroom]
        exact .refused rfl

/-- A reader whose latch is set has no answer and stays as it is. -/
theorem answer_of_failed (h : r.failed = true) (q : Request) : r.answer q = (none, r) := by
  cases q with
  | value t whole => exact read_of_failed h
  | optional t plain => exact readOptional_of_failed h
  | skip n =>
    show (if (r.skip n.toNat).1 then some () else none, (r.skip n.toNat).2) = _
    rw [skip_of_failed h]
    rfl

/-! ## Runs of requests -/

/-- No answer changes the bytes. -/
theorem Answers.bytes_eq {a : Option q.Value × Reader} (h : Answers r q a) :
    a.2.bytes = r.bytes := by
  cases h <;> rfl

/-- A position within the bytes stays there. -/
theorem Answers.offset_le_length {a : Option q.Value × Reader} (h : Answers r q a)
    (hoffset : r.offset ≤ r.bytes.length) : a.2.offset ≤ a.2.bytes.length := by
  cases h with
  | done v n live room held =>
    show r.offset + n ≤ r.bytes.length
    rw [remaining] at room
    omega
  | refused required => exact hoffset
  | absent optional => exact hoffset

/-- Every answer leaves a reader sound. -/
theorem Sound.answer (sound : r.Sound) (q : Request) : (r.answer q).2.Sound := by
  intro hlive
  by_cases hfailed : r.failed = true
  · rw [answer_of_failed hfailed q] at hlive
    exact absurd hfailed (Bool.eq_false_iff.1 hlive)
  · exact (answers sound q).offset_le_length (sound (Bool.eq_false_iff.2 hfailed))

/-- The first request is answered before the others. -/
theorem after_cons (r : Reader) (q : Request) (qs : List Request) :
    r.after (q :: qs) = (r.answer q).2.after qs :=
  rfl

/-- What every answer keeps a run of requests keeps. -/
theorem after_induction {P : Reader → Prop} (step : ∀ r q, r.Sound → P r → P (r.answer q).2)
    (qs : List Request) (sound : r.Sound) (h : P r) : P (r.after qs) := by
  induction qs generalizing r with
  | nil => exact h
  | cons q qs ih =>
    rw [after_cons]
    exact ih (sound.answer q) (step r q sound h)

/-- All answers together leave a reader sound. -/
theorem Sound.after (sound : r.Sound) (qs : List Request) : (r.after qs).Sound :=
  after_induction (fun _ q hsound _ => hsound.answer q) qs sound sound

/-- No requests change the bytes. -/
theorem bytes_after (sound : r.Sound) (qs : List Request) : (r.after qs).bytes = r.bytes :=
  after_induction (P := fun r' => r'.bytes = r.bytes)
    (fun _ q hsound h => (answers hsound q).bytes_eq.trans h) qs sound rfl

/-- A position within the bytes is there after any requests. -/
theorem offset_after_le (h : r.offset ≤ r.bytes.length) (qs : List Request) :
    (r.after qs).offset ≤ (r.after qs).bytes.length :=
  after_induction (fun _ q hsound h => (answers hsound q).offset_le_length h) qs (fun _ => h) h

end Reader

end DexFeed
