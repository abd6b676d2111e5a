import DexFeed.Event.Field

/-!
# Records

A record holds one value for each field of a list, in the order of the list. It is built from a
valuation, a choice of a value for every field, and read back field by field; a field outside the
list reads as zero. Since `tabulate` and `get` undo each other, a record is known by the values of
its fields and two records may be compared field by field.
-/

namespace DexFeed

/-- A value for every field. -/
abbrev Valuation : Type :=
  (f : Field) → f.type.Value

namespace Valuation

/-- The valuation that fills nothing in. -/
def zero : Valuation :=
  fun f => f.type.zero

/-- The valuation with one field changed. -/
def set (v : Valuation) (f : Field) (x : f.type.Value) : Valuation :=
  fun g => if h : f = g then h ▸ x else v g

/-- The value that was set is read back. -/
@[simp] theorem set_self (v : Valuation) (f : Field) (x : f.type.Value) : v.set f x f = x := by
  simp [set]

/-- Setting one field leaves the others. -/
@[simp] theorem set_of_ne {v : Valuation} {f g : Field} {x : f.type.Value} (h : f ≠ g) :
    v.set f x g = v g := by
  simp [set, h]

end Valuation

/-- One value for each field of a list. -/
inductive Record : List Field → Type
  /-- The record without fields. -/
  | nil : Record []
  /-- A value for the first field in front of a record of the others. -/
  | cons {f : Field} {fs : List Field} (x : f.type.Value) (rest : Record fs) : Record (f :: fs)

namespace Record

/-- Records are compared value by value. -/
def decEq : {fs : List Field} → (a b : Record fs) → Decidable (a = b)
  | _, .nil, .nil => isTrue rfl
  | _, .cons x a, .cons y b =>
    if h : x = y then
      match decEq a b with
      | isTrue h' => isTrue (by rw [h, h'])
      | isFalse h' => isFalse fun e => h' (by cases e; rfl)
    else isFalse fun e => h (by cases e; rfl)

instance (fs : List Field) : DecidableEq (Record fs) := decEq

/-- The record of a valuation's values. -/
def tabulate (v : Valuation) : (fs : List Field) → Record fs
  | [] => .nil
  | f :: fs => .cons (v f) (tabulate v fs)

/-- The value of a field, zero if the record does not have it. -/
def get : {fs : List Field} → Record fs → Valuation
  | _, .nil => Valuation.zero
  | _, .cons (f := f) x rest => fun g => if h : f = g then h ▸ x else rest.get g

/-- A tabulated record holds the valuation's value of each of its fields. -/
theorem get_tabulate (v : Valuation) (fs : List Field) (f : Field) :
    (tabulate v fs).get f = if f ∈ fs then v f else f.type.zero := by
  induction fs with
  | nil => rfl
  | cons g fs ih =>
    by_cases h : g = f
    · subst h
      simp [tabulate, get]
    · have h' : f ≠ g := fun e => h e.symm
      simp [tabulate, get, h, h', ih]

/-- A record without repeated fields is the tabulation of its own values. -/
theorem tabulate_get {fs : List Field} (h : fs.Nodup) (r : Record fs) : tabulate r.get fs = r := by
  induction r with
  | nil => rfl
  | @cons f fs x rest ih =>
    have hf : f ∉ fs := (List.nodup_cons.1 h).1
    have agree : ∀ gs : List Field, f ∉ gs →
        tabulate (Record.cons x rest).get gs = tabulate rest.get gs := by
      intro gs
      induction gs with
      | nil => intro _; rfl
      | cons g gs ihg =>
        intro hg
        have hne : f ≠ g := fun e => hg (by rw [e]; exact List.mem_cons_self)
        have hgs : f ∉ gs := fun m => hg (List.mem_cons_of_mem _ m)
        have value : (Record.cons x rest).get g = rest.get g := by simp [get, hne]
        rw [tabulate, tabulate, value, ihg hgs]
    have head : (Record.cons x rest).get f = x := by simp [get]
    rw [tabulate, head, agree fs hf, ih (List.nodup_cons.1 h).2]

/-- A field that a record does not have reads as zero. -/
theorem get_of_not_mem {fs : List Field} {f : Field} (h : f ∉ fs) (r : Record fs) :
    r.get f = f.type.zero := by
  induction r with
  | nil => rfl
  | @cons g fs x rest ih =>
    obtain ⟨hne, hmem⟩ := not_or.1 fun hf => h (List.mem_cons.2 hf)
    have hskip : (Record.cons x rest).get f = rest.get f := by simp [get, Ne.symm hne]
    rw [hskip, ih hmem]

/-- Records without repeated fields are equal when all their fields are. -/
theorem ext_get {fs : List Field} (h : fs.Nodup) {a b : Record fs} (hab : ∀ f, a.get f = b.get f) :
    a = b := by
  rw [← tabulate_get h a, ← tabulate_get h b, funext hab]

end Record

end DexFeed
