import Mathlib.Data.List.Nodup
import DexFeed.Payload.Basic

/-!
# Tags

A program tells its payloads apart by their tags: no two of its instructions, of its log payloads or
of its account states share one. So a payload is found by its tag and by nothing else. A log payload
comes in two forms, with its own tag in front or with `selfCall` before that; since `selfCall` is
the tag of no log payload, the form of some data is never in doubt, and both forms of one payload
say the same.
-/

namespace DexFeed

/-- The first eight bytes are a tag exactly when the data begin with it. -/
theorem Tag.take_eq_iff {tag : Tag} {data : Bytes} :
    data.take 8 = tag.bytes ↔ tag.bytes <+: data := by
  rw [List.prefix_iff_eq_take, tag.length_eq]
  exact eq_comm

/-- Data begin with one tag at most. -/
theorem Tag.eq_of_prefix {tag tag' : Tag} {data : Bytes} (h : tag.bytes <+: data)
    (h' : tag'.bytes <+: data) : tag = tag' := by
  rw [← Tag.take_eq_iff] at h h'
  cases tag
  cases tag'
  simp_all only

/-- Where different kinds have different programs or tags a kind is found by its own. -/
theorem find?_tagged_eq_some_iff {κ : Type} {all : List κ} {protocol : κ → Protocol} {tag : κ → Tag}
    (nodup : (all.map fun kind => (protocol kind, tag kind)).Nodup) {p : Protocol} {data : Bytes}
    {kind : κ} :
    (all.find? fun kind => protocol kind = p ∧ data.take 8 = (tag kind).bytes) = some kind ↔
      kind ∈ all ∧ protocol kind = p ∧ (tag kind).bytes <+: data := by
  have holds : ∀ kind, decide (protocol kind = p ∧ data.take 8 = (tag kind).bytes) = true ↔
      protocol kind = p ∧ (tag kind).bytes <+: data := by
    intro kind
    rw [decide_eq_true_eq, Tag.take_eq_iff]
  constructor
  · intro h
    have hkind := List.find?_some h
    exact ⟨List.mem_of_find?_eq_some h, (holds kind).1 hkind⟩
  · rintro ⟨hmem, hprotocol, htag⟩
    cases hfound : all.find? fun kind => protocol kind = p ∧ data.take 8 = (tag kind).bytes with
    | none =>
      exact absurd ((holds kind).2 ⟨hprotocol, htag⟩) (List.find?_eq_none.1 hfound kind hmem)
    | some other =>
      have hother := List.find?_some hfound
      obtain ⟨hprotocol', htag'⟩ := (holds other).1 hother
      have same : (protocol other, tag other) = (protocol kind, tag kind) := by
        rw [hprotocol', hprotocol, Tag.eq_of_prefix htag' htag]
      have heq : other = kind :=
        List.inj_on_of_nodup_map nodup (List.mem_of_find?_eq_some hfound) hmem same
      rw [heq]

namespace InstructionKind

variable {kind : InstructionKind} {p : Protocol} {data : Bytes}

/-- No kind of instruction is missing from the list. -/
theorem mem_all (kind : InstructionKind) : kind ∈ all := by
  cases kind <;> decide

/-- Data are those of an instruction exactly when it is one of the program and its tag is in front;
no two instructions of a program share a tag. -/
theorem find?_eq_some_iff :
    find? p data = some kind ↔ kind.protocol = p ∧ kind.tag.bytes <+: data := by
  have nodup : (all.map fun kind => (kind.protocol, kind.tag)).Nodup := by
    decide +kernel
  exact (find?_tagged_eq_some_iff nodup).trans (and_iff_right (mem_all kind))

end InstructionKind

namespace SnapshotKind

variable {kind : SnapshotKind} {p : Protocol} {data : Bytes}

/-- No kind of record is missing from the list. -/
theorem mem_all (kind : SnapshotKind) : kind ∈ all := by
  cases kind <;> decide

/-- Data are those of a record exactly when it is one of the program and its tag is in front. -/
theorem find?_eq_some_iff :
    find? p data = some kind ↔ kind.protocol = p ∧ kind.tag.bytes <+: data := by
  have nodup : (all.map fun kind => (kind.protocol, kind.tag)).Nodup := by
    decide +kernel
  exact (find?_tagged_eq_some_iff nodup).trans (and_iff_right (mem_all kind))

end SnapshotKind

/-! ## The two forms of a log payload -/

namespace LogKind

variable {kind : LogKind} {p : Protocol} {data d : Bytes}

/-- No kind of log is missing from the list. -/
theorem mem_all (kind : LogKind) : kind ∈ all := by
  cases kind <;> decide

/-- No log has the tag of a program's report to itself. -/
theorem tag_ne_selfCall (kind : LogKind) : kind.tag ≠ selfCall := by
  cases kind <;> decide

/-- A report to itself has a second tag behind the first. -/
theorem isSelfCall_iff : isSelfCall data = true ↔ 16 ≤ data.length ∧ selfCall.bytes <+: data := by
  rw [isSelfCall, Bool.and_eq_true, decide_eq_true_eq, beq_iff_eq, Tag.take_eq_iff]

/-- In front of a tag of a log stands nothing. -/
theorem lead_of_tag (h : kind.tag.bytes <+: data) : lead data = 0 := by
  have hself : ¬isSelfCall data = true := fun hself =>
    tag_ne_selfCall kind (Tag.eq_of_prefix h (isSelfCall_iff.1 hself).2)
  rw [lead, if_neg hself]

/-- In a report to itself the tag of the log stands behind the first one. -/
theorem lead_of_selfCall (h : selfCall.bytes ++ kind.tag.bytes <+: data) : lead data = 8 := by
  have hlength : (selfCall.bytes ++ kind.tag.bytes).length = 16 := by
    rw [List.length_append, selfCall.length_eq, kind.tag.length_eq]
  have hself : isSelfCall data = true :=
    isSelfCall_iff.2 ⟨hlength ▸ h.length_le, (List.prefix_append _ _).trans h⟩
  rw [lead, if_pos hself]

/-- A log payload is found by its tag at the front or behind `selfCall`. -/
theorem find?_eq_some_iff : find? p data = some kind ↔ kind.protocol = p ∧
    (kind.tag.bytes <+: data ∨ selfCall.bytes ++ kind.tag.bytes <+: data) := by
  have nodup : (all.map fun kind => (kind.protocol, kind.tag)).Nodup := by
    decide +kernel
  have htable : find? p data = some kind ↔
      kind.protocol = p ∧ kind.tag.bytes <+: data.drop (lead data) :=
    (find?_tagged_eq_some_iff nodup).trans (and_iff_right (mem_all kind))
  rw [htable]
  refine and_congr_right fun _ => ⟨fun h => ?_, ?_⟩
  · by_cases hself : isSelfCall data = true
    · rw [lead, if_pos hself] at h
      obtain ⟨d, rfl⟩ := (isSelfCall_iff.1 hself).2
      rw [List.drop_left' selfCall.length_eq] at h
      exact .inr (List.prefix_append_right_inj _ |>.2 h)
    · rw [lead, if_neg hself] at h
      exact .inl h
  · rintro (h | h)
    · rw [lead_of_tag h]
      exact h
    · rw [lead_of_selfCall h]
      obtain ⟨body, rfl⟩ := h
      rw [List.append_assoc, List.drop_left' selfCall.length_eq]
      exact List.prefix_append _ _

/-- Behind `selfCall` a log payload is found by its tag alone. -/
theorem find?_selfCall_append_eq_some_iff :
    find? p (selfCall.bytes ++ d) = some kind ↔ kind.protocol = p ∧ kind.tag.bytes <+: d := by
  rw [find?_eq_some_iff, List.prefix_append_right_inj]
  refine and_congr_right fun _ => or_iff_right fun h => ?_
  exact tag_ne_selfCall kind (Tag.eq_of_prefix h (List.prefix_append _ _))

/-- Data in which a payload is found are its header and the body behind that. -/
theorem exists_header (h : find? p data = some kind) :
    ∃ head, data = head ++ data.drop (headerSize data) ∧ head.length = headerSize data ∧
      (head = kind.tag.bytes ∨ head = selfCall.bytes ++ kind.tag.bytes) := by
  rcases (find?_eq_some_iff.1 h).2 with htag | htag
  · have hsize : headerSize data = kind.tag.bytes.length := by
      rw [headerSize, lead_of_tag htag, kind.tag.length_eq]
    refine ⟨kind.tag.bytes, ?_, hsize.symm, .inl rfl⟩
    rw [hsize]
    exact (List.prefix_iff_eq_append.1 htag).symm
  · have hsize : headerSize data = (selfCall.bytes ++ kind.tag.bytes).length := by
      rw [headerSize, lead_of_selfCall htag, List.length_append, selfCall.length_eq,
        kind.tag.length_eq]
    refine ⟨selfCall.bytes ++ kind.tag.bytes, ?_, hsize.symm, .inr rfl⟩
    rw [hsize]
    exact (List.prefix_iff_eq_append.1 htag).symm

/-- Behind a header the kind is found again, and the header ends where the body begins. -/
theorem find?_header {head : Bytes}
    (h : head = kind.tag.bytes ∨ head = selfCall.bytes ++ kind.tag.bytes) (body : Bytes) :
    find? kind.protocol (head ++ body) = some kind ∧ headerSize (head ++ body) = head.length := by
  have hprefix : head <+: head ++ body := List.prefix_append _ _
  rcases h with rfl | rfl
  · refine ⟨find?_eq_some_iff.2 ⟨rfl, .inl hprefix⟩, ?_⟩
    rw [headerSize, lead_of_tag hprefix, kind.tag.length_eq]
  · refine ⟨find?_eq_some_iff.2 ⟨rfl, .inr hprefix⟩, ?_⟩
    rw [headerSize, lead_of_selfCall hprefix, List.length_append, selfCall.length_eq,
      kind.tag.length_eq]

end LogKind

namespace Payload

open LogKind

variable {p : Protocol} {d data : Bytes} {m : Metadata} {kind : LogKind}

/-- A known log is read by its kind, behind the header. -/
theorem log?_of_find? (h : LogKind.find? p data = some kind) :
    log? p data m = kind.event? (data.drop (headerSize data)) m := by
  rw [log?, h, Option.bind_eq_bind, Option.bind_some]

/-- An unknown log is not understood. -/
theorem log?_of_find?_eq_none (h : LogKind.find? p data = none) : log? p data m = none := by
  rw [log?, h, Option.bind_eq_bind, Option.bind_none]

/-- Data that do not begin with `selfCall` say the same behind it. -/
theorem log?_selfCall_append (h : ¬selfCall.bytes <+: d) :
    log? p (selfCall.bytes ++ d) m = log? p d m := by
  have hfind : LogKind.find? p (selfCall.bytes ++ d) = LogKind.find? p d := by
    ext kind
    rw [find?_selfCall_append_eq_some_iff, LogKind.find?_eq_some_iff]
    refine and_congr_right fun _ => (or_iff_left fun hself => h ?_).symm
    exact (List.prefix_append _ _).trans hself
  cases hkind : LogKind.find? p d with
  | none => rw [log?_of_find?_eq_none hkind, log?_of_find?_eq_none (hfind.trans hkind)]
  | some kind =>
    have htag : kind.tag.bytes <+: d :=
      (find?_selfCall_append_eq_some_iff.1 (hfind.trans hkind)).2
    have hself : selfCall.bytes ++ kind.tag.bytes <+: selfCall.bytes ++ d :=
      (List.prefix_append_right_inj _).2 htag
    -- Both headers end where the body begins.
    have hbody : (selfCall.bytes ++ d).drop (headerSize (selfCall.bytes ++ d)) =
        d.drop (headerSize d) := by
      rw [headerSize, headerSize, lead_of_selfCall hself, lead_of_tag htag, ← List.drop_drop,
        List.drop_left' selfCall.length_eq]
    rw [log?_of_find? hkind, log?_of_find? (hfind.trans hkind), hbody]

/-- Behind `selfCall` nothing is understood that begins with `selfCall`. -/
theorem log?_selfCall_append_of_prefix (h : selfCall.bytes <+: d) :
    log? p (selfCall.bytes ++ d) m = none := by
  refine log?_of_find?_eq_none (Option.eq_none_iff_forall_ne_some.2 fun kind hkind => ?_)
  have htag : kind.tag.bytes <+: d := (find?_selfCall_append_eq_some_iff.1 hkind).2
  exact tag_ne_selfCall kind (Tag.eq_of_prefix htag h)

/-- Both forms of a log payload say the same: data that do not begin with `selfCall` give behind it
just what they give without it, be they as short as they may. Data that do begin with it give
nothing behind it. Where a payload is found its body is what stands behind its header, in either
form, and the header never exceeds the data. -/
theorem log?_two_forms (p : Protocol) (m : Metadata) :
    (∀ d, ¬selfCall.bytes <+: d → log? p (selfCall.bytes ++ d) m = log? p d m) ∧
    (∀ d, selfCall.bytes <+: d → log? p (selfCall.bytes ++ d) m = none) ∧
    ∀ data kind, LogKind.find? p data = some kind →
      headerSize data ≤ data.length ∧
      ∃ head body, data = head ++ body ∧ head.length = headerSize data ∧
        (head = kind.tag.bytes ∨ head = selfCall.bytes ++ kind.tag.bytes) ∧
        log? p data m = kind.event? body m := by
  refine ⟨fun d => log?_selfCall_append, fun d => log?_selfCall_append_of_prefix,
    fun data kind hkind => ?_⟩
  obtain ⟨head, hdata, hlength, hform⟩ := exists_header hkind
  refine ⟨?_, head, data.drop (headerSize data), hdata, hlength, hform, log?_of_find? hkind⟩
  rw [← hlength]
  exact List.IsPrefix.length_le ⟨_, hdata.symm⟩

/-- A report that a curve is complete, with zeros for everything that it states. -/
def completion : Bytes :=
  LogKind.pumpFunComplete.tag.bytes ++ List.replicate 104 0

/-- The report is understood in both forms and says the same, and a second `selfCall` in front of it
makes it say nothing. -/
theorem log?_two_forms_completion :
    (log? .pumpFun completion Metadata.empty).isSome ∧
      log? .pumpFun (selfCall.bytes ++ completion) Metadata.empty =
        log? .pumpFun completion Metadata.empty ∧
      log? .pumpFun (selfCall.bytes ++ (selfCall.bytes ++ completion)) Metadata.empty = none := by
  obtain ⟨same, nothing, -⟩ := log?_two_forms .pumpFun Metadata.empty
  have plain : ¬selfCall.bytes <+: completion := by
    decide
  exact ⟨by decide +kernel, same completion plain, nothing _ (List.prefix_append _ _)⟩

end Payload

end DexFeed
