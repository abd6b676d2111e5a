import DexFeed.Proofs.Pass.Provenance

/-!
# How many events a pass gives

A pass counts what it finds before it merges, and the merged events are what merging makes fewer.
The events that come out and those merged therefore make up what was found. Error events describe no
doing, so merging never touches them, and the merged events stay within the instruction events as
well as within the log events.
-/

namespace DexFeed

namespace Finding

/-- The requests of a finding come before those of the later ones. -/
theorem requests_cons (f : Finding) (found : List Finding) :
    (f :: found).filterMap request? = f.request?.toList ++ found.filterMap request? := by
  rw [List.filterMap_cons]
  cases f.request? with
  | none => rfl
  | some e => rfl

/-- Instruction and error events are the two kinds of request. -/
theorem length_request? (f : Finding) : f.request?.toList.length =
    (if f.isInstruction then 1 else 0) + if f.isFault then 1 else 0 := by
  cases f <;> rfl

/-- Each request comes from an instruction or from a fault. -/
theorem length_requests (found : List Finding) :
    (found.filterMap request?).length = found.countP isInstruction + found.countP isFault := by
  induction found with
  | nil => rfl
  | cons f found ih =>
    have hfirst := f.length_request?
    rw [requests_cons, List.length_append, List.countP_cons, List.countP_cons]
    omega

/-- Where an error describes no doing, only an instruction event does. -/
theorem countP_doing_request? {f : Finding} (herror : ∀ e, f = fault e → e.doing? = none) :
    f.request?.toList.countP (fun e => e.doing?.isSome) ≤ if f.isInstruction then 1 else 0 := by
  cases f with
  | instruction e => exact List.countP_le_length
  | fault e =>
    have hnone : e.doing? = none := herror e rfl
    have hcount : [e].countP (fun e => e.doing?.isSome) = 0 := by
      rw [List.countP_singleton, hnone]
      rfl
    exact hcount.le
  | log e => exact Nat.le_refl 0
  | nothing => exact Nat.le_refl 0

/-- Where faults report no doing, no more requests report one than there are instructions. -/
theorem countP_doing_requests {found : List Finding}
    (herrors : ∀ e, fault e ∈ found → e.doing? = none) :
    (found.filterMap request?).countP (fun e => e.doing?.isSome) ≤ found.countP isInstruction := by
  induction found with
  | nil => exact Nat.le_refl 0
  | cons f found ih =>
    have hfirst : f.request?.toList.countP (fun e => e.doing?.isSome) ≤
        if f.isInstruction then 1 else 0 :=
      countP_doing_request? fun e he => herrors e (he ▸ List.mem_cons_self)
    have hrest := ih fun e he => herrors e (List.mem_cons_of_mem f he)
    rw [requests_cons, List.countP_append, List.countP_cons]
    omega

end Finding

variable {config : Config} {tx : Transaction} {e : Event}

/-- The error event of an instruction describes no doing. -/
theorem Visit.doing?_fault (v : Visit) (tx : Transaction) : (v.fault tx).doing? = none :=
  rfl

/-- A fault reports no doing. -/
theorem Visit.doing?_of_examine {v : Visit} {logged : Bool}
    (h : v.examine config tx logged = .fault e) : e.doing? = none := by
  rcases v.examine_cases config tx logged with hv | hv | ⟨program, p, -, -, hv⟩
  · rw [hv] at h
    contradiction
  · rw [hv, Finding.fault.injEq] at h
    rw [← h]
    exact v.doing?_fault tx
  · -- An instruction that is decoded is never an error.
    rw [hv, decodeAs] at h
    by_cases hself : (v.inner.isSome && LogKind.isSelfCall v.call.data) = true
    · rw [if_pos hself] at h
      cases hlog : Payload.log? p v.call.data { v.locate tx.metadata with programId := program } <;>
        simp only [hlog, Finding.ofOption, reduceCtorEq] at h
    · rw [if_neg hself] at h
      cases hcall : Payload.instruction? p v.call.data ⟨tx.keys, v.call.accounts⟩
          { v.locate tx.metadata with programId := program } <;>
        simp only [hcall, Finding.ofOption, reduceCtorEq] at h

/-- No fault of a pass reports a doing. -/
theorem doing?_of_fault_mem_findings {logged : Bool} {visits : List Visit}
    (h : .fault e ∈ findings config tx logged visits) : e.doing? = none := by
  induction visits generalizing logged with
  | nil => contradiction
  | cons v visits ih =>
    rw [findings] at h
    cases List.mem_cons.1 h with
    | inl hfirst => exact Visit.doing?_of_examine hfirst.symm
    | inr hrest => exact ih hrest

namespace Transaction

/-- How many instruction events of a transaction are taken in by log events. -/
def absorbed (config : Config) (tx : Transaction) : Nat :=
  if config.mergeEnabled then pairCount (tx.kept config) (tx.requests config) else 0

/-- The instruction and error events are as many as the pass counts. -/
theorem length_requests (config : Config) (tx : Transaction) : (tx.requests config).length =
    (tx.decode config).instructionEvents + (tx.decode config).errors :=
  Finding.length_requests _

/-- The log events kept are as many as the pass counts. -/
theorem length_kept (config : Config) (tx : Transaction) :
    (tx.kept config).length = (tx.decode config).logEvents :=
  rfl

/-- What comes out and what was taken in make up what was found. -/
theorem length_events (config : Config) (tx : Transaction) :
    (tx.decode config).events.length + tx.absorbed config =
      (tx.requests config).length + (tx.kept config).length := by
  rw [decode_eq, absorbed]
  by_cases hmerge : config.mergeEnabled = true
  · rw [if_pos hmerge, if_pos hmerge]
    exact length_reconcile _ _
  · rw [if_neg hmerge, if_neg hmerge, List.length_append]
    omega

/-- The count of merged events is taken by a subtraction, and it is exact. -/
theorem merged_eq (config : Config) (tx : Transaction) :
    (tx.decode config).merged = tx.absorbed config := by
  have hdefinition : (tx.decode config).merged =
      (tx.requests config).length + (tx.kept config).length -
        (tx.decode config).events.length := rfl
  have hlength := tx.length_events config
  omega

/-- No more events are absorbed than there are instruction events, since an error pairs with
nothing. -/
theorem absorbed_le_instructionEvents (config : Config) (tx : Transaction) :
    tx.absorbed config ≤ (tx.decode config).instructionEvents := by
  rw [absorbed]
  by_cases hmerge : config.mergeEnabled = true
  · rw [if_pos hmerge]
    have hdoings := pairCount_le_countP (tx.kept config) (tx.requests config)
    have hrequests : (tx.requests config).countP (fun e => e.doing?.isSome) ≤
        (tx.decode config).instructionEvents :=
      Finding.countP_doing_requests fun _ he => doing?_of_fault_mem_findings he
    omega
  · rw [if_neg hmerge]
    exact Nat.zero_le _

/-- No more events are absorbed than there are log events to take them. -/
theorem absorbed_le_logEvents (config : Config) (tx : Transaction) :
    tx.absorbed config ≤ (tx.decode config).logEvents := by
  rw [absorbed]
  by_cases hmerge : config.mergeEnabled = true
  · rw [if_pos hmerge, ← length_kept]
    exact pairCount_le_length _ _
  · rw [if_neg hmerge]
    exact Nat.zero_le _

end Transaction

end DexFeed
