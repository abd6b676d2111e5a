import DexFeed.Text.Utf8.Lemmas
import DexFeed.Text.Utf8.Walk

/-!
# Well formed text in memory

A byte string is well formed exactly when it is the concatenation of the encodings of some
characters, each in its shortest form. A walk over a stretch of memory finds out just that: what it
gathers from the bytes of one character is what the decoder makes of them, and it never looks beyond
the end of the stretch, not even for the continuation bytes that a first byte announces.
-/

namespace DexFeed.Utf8

variable {a : UInt8} {bs rest : Bytes} {k bits least position n : Nat} {memory : Memory}

/-- A byte string is well formed exactly when it encodes some characters. -/
theorem isValid_iff :
    isValid bs = true ↔ ∃ cs : List Char, bs = cs.flatMap String.utf8EncodeChar := by
  rw [isValid, Option.isSome_iff_exists]
  exact exists_congr fun cs => decode_eq_some_iff

/-- Bytes are well formed exactly when they are those of a text. -/
theorem isValid_eq_isSome (bs : Bytes) : isValid bs = (text? bs).isSome := by
  rw [isValid, text?, Option.isSome_map]

/-- The bytes of a text are well formed. -/
theorem isValid_encode (text : String) : isValid (encode text) = true :=
  isValid_iff.2 ⟨text.toList, rfl⟩

/-! ## Plain texts -/

/-- A text of characters below 128 only. -/
def Plain (text : String) : Prop :=
  ∀ c ∈ text.toList, c.toNat < 0x80

instance (text : String) : Decidable (Plain text) :=
  decidable_of_iff (text.toList.all fun c => decide (c.toNat < 0x80)) <| by
    simp only [Plain, List.all_eq_true, decide_eq_true_eq]

/-- Plain texts make a plain text. -/
theorem Plain.append {s t : String} (hs : Plain s) (ht : Plain t) : Plain (s ++ t) := by
  rw [Plain, String.toList_append]
  exact List.forall_mem_append.2 ⟨hs, ht⟩

/-- A number is written plainly. -/
theorem plain_toString (n : Nat) : Plain (toString n) := by
  intro c hc
  rw [Nat.toString_eq_repr, Nat.toList_repr] at hc
  have hdigit := Nat.isDigit_of_mem_toDigits (by decide) (by decide) hc
  simp only [Char.isDigit, Bool.and_eq_true, decide_eq_true_eq] at hdigit
  have hhigh : c.toNat ≤ 57 := hdigit.2
  omega

/-- A plain text is encoded character by character. -/
theorem Plain.encode_eq {text : String} (h : Plain text) : encode text = ascii text := by
  rw [Plain] at h
  rw [encode, encoding, ascii]
  generalize text.toList = cs at h ⊢
  induction cs with
  | nil => rfl
  | cons c cs ih =>
    obtain ⟨hc, hcs⟩ := List.forall_mem_cons.1 h
    rw [List.flatMap_cons, List.map_cons, utf8EncodeChar_one hc, ih hcs]
    rfl

/-! ## One character -/

/-- The value that continuation bytes bring some bits to. -/
def gather (bits : Nat) : Bytes → Option Nat
  | [] => some bits
  | b :: bs => (continuation b).bind fun x => gather (bits * 64 + x) bs

/-- Continuation bytes are gathered six bits at a time, the first one highest. -/
theorem gather_cons (bits : Nat) (b : UInt8) (bs : Bytes) :
    gather bits (b :: bs) = (continuation b).bind fun x => gather (bits * 64 + x) bs :=
  rfl

/-- The form of two bytes holds five bits and a continuation byte. -/
theorem ofTwo_eq (a b : UInt8) :
    ofTwo a b = (gather (a &&& 0x1F).toNat [b]).bind (scalar 0x80) := by
  rw [ofTwo, gather_cons]
  cases continuation b <;> rfl

/-- The form of three bytes holds four bits and two continuation bytes. -/
theorem ofThree_eq (a b c : UInt8) :
    ofThree a b c = (gather (a &&& 0x0F).toNat [b, c]).bind (scalar 0x800) := by
  rw [ofThree, gather_cons]
  cases continuation b with
  | none => rfl
  | some x =>
    rw [Option.bind_some, gather_cons]
    cases continuation c <;> rfl

/-- The form of four bytes holds three bits and three continuation bytes. -/
theorem ofFour_eq (a b c d : UInt8) :
    ofFour a b c d = (gather (a &&& 0x07).toNat [b, c, d]).bind (scalar 0x10000) := by
  rw [ofFour, gather_cons]
  cases continuation b with
  | none => rfl
  | some x =>
    rw [Option.bind_some, gather_cons]
    cases continuation c with
    | none => rfl
    | some y =>
      rw [Option.bind_some, gather_cons]
      cases continuation d <;> rfl

/-- A character and what follows are well formed if the value is one that the form may have. -/
theorem isSome_character (value : Option Nat) (least : Nat) (rest : Bytes) :
    ((value.bind (scalar least)).bind fun c => (decode rest).bind fun cs => some (c :: cs)).isSome =
      value.any fun v => (scalar least v).isSome && isValid rest := by
  cases value with
  | none => rfl
  | some v =>
    rw [Option.bind_some, Option.any_some]
    cases scalar least v with
    | none => rfl
    | some c =>
      rw [isValid]
      cases decode rest <;> rfl

/-- A longer form is well formed if the continuation bytes are there that its first byte announces,
if they bring it to a character that has no shorter form, and if what follows is well formed. -/
theorem isValid_cons_of_lead (ha : ¬a < 0x80) (hlead : lead a = some (k, bits, least)) :
    isValid (a :: rest) =
      if rest.length < k then false
      else (gather bits (rest.take k)).any fun value =>
        (scalar least value).isSome && isValid (rest.drop k) := by
  rw [isValid, decode_cons, if_neg ha]
  rw [lead] at hlead
  by_cases h1 : a &&& 0xE0 = 0xC0
  · rw [if_pos h1] at hlead
    cases hlead
    rw [if_pos h1]
    cases rest with
    | nil => rfl
    | cons b rest =>
      have hroom : ¬(b :: rest).length < 1 := by rw [List.length_cons]; omega
      simp only [ofTwo_eq]
      rw [if_neg hroom, isSome_character]
      rfl
  · rw [if_neg h1] at hlead ⊢
    by_cases h2 : a &&& 0xF0 = 0xE0
    · rw [if_pos h2] at hlead
      cases hlead
      rw [if_pos h2]
      cases rest with
      | nil => rfl
      | cons b rest =>
        cases rest with
        | nil => rfl
        | cons c rest =>
          have hroom : ¬(b :: c :: rest).length < 2 := by simp only [List.length_cons]; omega
          simp only [ofThree_eq]
          rw [if_neg hroom, isSome_character]
          rfl
    · rw [if_neg h2] at hlead ⊢
      by_cases h3 : a &&& 0xF8 = 0xF0
      · rw [if_pos h3] at hlead
        cases hlead
        rw [if_pos h3]
        cases rest with
        | nil => rfl
        | cons b rest =>
          cases rest with
          | nil => rfl
          | cons c rest =>
            cases rest with
            | nil => rfl
            | cons d rest =>
              have hroom : ¬(b :: c :: d :: rest).length < 3 := by
                simp only [List.length_cons]
                omega
              simp only [ofFour_eq]
              rw [if_neg hroom, isSome_character]
              rfl
      · rw [if_neg h3] at hlead
        contradiction

/-- A first byte that announces nothing begins no character. -/
theorem isValid_cons_of_no_lead (ha : ¬a < 0x80) (hlead : lead a = none) :
    isValid (a :: rest) = false := by
  rw [isValid, decode_cons, if_neg ha]
  rw [lead] at hlead
  by_cases h1 : a &&& 0xE0 = 0xC0
  · rw [if_pos h1] at hlead
    contradiction
  · by_cases h2 : a &&& 0xF0 = 0xE0
    · rw [if_neg h1, if_pos h2] at hlead
      contradiction
    · by_cases h3 : a &&& 0xF8 = 0xF0
      · rw [if_neg h1, if_neg h2, if_pos h3] at hlead
        contradiction
      · rw [if_neg h1, if_neg h2, if_neg h3]
        rfl

/-- A byte below 128 is a character by itself. -/
theorem isValid_cons_of_lt (ha : a < 0x80) : isValid (a :: rest) = isValid rest := by
  rw [isValid, isValid, decode_cons, if_pos ha, Option.isSome_map]

/-! ## The walk -/

/-- The walk over continuation bytes gathers them. -/
theorem run_walkTail (position n bits : Nat) :
    (walkTail position n bits).run memory = gather bits (memory.span position n) := by
  induction n generalizing position bits with
  | zero => rfl
  | succ n ih =>
    rw [walkTail, Memory.span, gather, Probe.run]
    cases continuation (memory position) with
    | none => rfl
    | some x => exact ih (position + 1) (bits * 64 + x)

/-- The walk over continuation bytes looks at no others. -/
theorem within_walkTail (position n bits : Nat) :
    (walkTail position n bits).Within memory position (position + n) := by
  induction n generalizing position bits with
  | zero => exact Probe.within_pure _
  | succ n ih =>
    rw [walkTail]
    refine Probe.Within.look ⟨Nat.le_refl _, by omega⟩ ?_
    cases continuation (memory position) with
    | none => exact Probe.within_pure _
    | some x => exact (ih (position + 1) (bits * 64 + x)).mono (by omega) (by omega)

/-- A walk over a stretch of memory tells whether it is well formed. -/
theorem run_walk (memory : Memory) (position n : Nat) :
    (walk position n).run memory = isValid (memory.span position n) := by
  -- A character takes at least one byte, so what is left of the stretch gets shorter.
  induction n using Nat.strongRecOn generalizing position with
  | ind n ih =>
    cases n with
    | zero =>
      rw [walk]
      rfl
    | succ n =>
      rw [walk, Memory.span, Probe.run]
      by_cases ha : memory position < 0x80
      · rw [if_pos ha, isValid_cons_of_lt ha]
        exact ih n (Nat.lt_succ_self n) (position + 1)
      · rw [if_neg ha]
        cases hlead : lead (memory position) with
        | none =>
          rw [isValid_cons_of_no_lead ha hlead]
          rfl
        | some announced =>
          obtain ⟨k, bits, least⟩ := announced
          rw [isValid_cons_of_lead ha hlead, Memory.length_span]
          by_cases hroom : n < k
          · simp only [if_pos hroom, Probe.run_pure]
          · have hk : k ≤ n := Nat.le_of_not_lt hroom
            have hshorter : n - k < n + 1 := by omega
            simp only [if_neg hroom, Probe.run_bind, run_walkTail, Memory.drop_span,
              Memory.take_span memory (position + 1) hk]
            cases gather bits (memory.span (position + 1) k) with
            | none => rfl
            | some value =>
              rw [Option.any_some]
              by_cases hscalar : (scalar least value).isSome = true
              · simp only [hscalar, if_true, Bool.true_and]
                exact ih (n - k) hshorter (position + 1 + k)
              · simp only [hscalar, Bool.false_and, Probe.run_pure, if_false, Bool.false_eq_true]

/-- A walk looks at nothing outside of its stretch. -/
theorem within_walk (memory : Memory) (position n : Nat) :
    (walk position n).Within memory position (position + n) := by
  induction n using Nat.strongRecOn generalizing position with
  | ind n ih =>
    cases n with
    | zero =>
      rw [walk]
      exact Probe.within_pure _
    | succ n =>
      rw [walk]
      refine Probe.Within.look ⟨Nat.le_refl _, by omega⟩ ?_
      by_cases ha : memory position < 0x80
      · rw [if_pos ha]
        exact (ih n (Nat.lt_succ_self n) (position + 1)).mono (by omega) (by omega)
      · rw [if_neg ha]
        cases lead (memory position) with
        | none => exact Probe.within_pure _
        | some announced =>
          obtain ⟨k, bits, least⟩ := announced
          by_cases hroom : n < k
          · simp only [if_pos hroom]
            exact Probe.within_pure _
          · have hk : k ≤ n := Nat.le_of_not_lt hroom
            have hshorter : n - k < n + 1 := by omega
            simp only [if_neg hroom]
            have htail : (walkTail (position + 1) k bits).Within memory (position + 1)
                (position + 1 + k) := within_walkTail (position + 1) k bits
            refine Probe.Within.bind (htail.mono (by omega) (by omega)) ?_
            cases (walkTail (position + 1) k bits).run memory with
            | none => exact Probe.within_pure _
            | some value =>
              by_cases hscalar : (scalar least value).isSome = true
              · simp only [if_pos hscalar]
                exact (ih (n - k) hshorter (position + 1 + k)).mono (by omega) (by omega)
              · simp only [if_neg hscalar]
                exact Probe.within_pure _

end DexFeed.Utf8
