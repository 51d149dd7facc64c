import TerrapiVault.Replication.PairRuns

/-! Requests under a name that is already taken: a retry gets the first result, any
other request is refused. -/
namespace TerrapiVault.Replication

open CrashLogic Protocol

variable {D : Type} [DecidableEq D] {X : Engine D} {identity : Identity ℕ}

namespace Node.Sound

variable {node : Node D} {h : History X.schema identity} {tail : Option (RefEntry D)}
  {e : RefEntry D} {batch : Batch Change ℕ}

omit [DecidableEq D] in
theorem operation_entry (sound : node.Sound h tail) (mem : e ∈ h.entries) :
    node.store.log.find? (fun row => row.batch.operationId = e.batch.operationId) = some e := by
  have inside : e ∈ node.store.log := sound.store.mem_log.mpr (.inl mem)
  refine Table.find?_unique inside (decide_eq_true rfl) ?_
  intro row mem same
  exact sound.store.operation_unique mem inside (of_decide_eq_true same)

theorem completedResult_entry (sound : node.Sound h tail) (mem : e ∈ h.entries) :
    node.completedResult X e.batch = .ok (some (e.receipt X.schema).result) := by
  obtain ⟨_, linked⟩ := h.chained.linked mem
  have answer := sound.store.completedResult_known ⟨linked.identity_eq, linked.operationId_ne⟩
    (sound.store.receipt?_entry mem)
  have same : (e.receipt X.schema).requestDigest = X.schema.requestFingerprint e.batch.changes :=
    rfl
  rw [if_pos same] at answer
  rw [completedResult, sound.identity_eq]
  exact answer

theorem completedResult_conflict (sound : node.Sound h tail) (mem : e ∈ h.entries)
    (named : batch.operationId = e.batch.operationId)
    (other : X.requestFingerprint batch.changes ≠ X.requestFingerprint e.batch.changes) :
    ∃ fault, node.completedResult X batch = .error fault := by
  rw [completedResult, sound.identity_eq]
  by_cases valid : batch.identity = identity ∧ batch.operationId ≠ ""
  · have found := sound.store.receipt?_entry mem
    rw [← named] at found
    have answer := sound.store.completedResult_known valid found
    have digest : (e.receipt X.schema).requestDigest ≠ X.schema.requestFingerprint batch.changes :=
      Ne.symm other
    rw [if_neg digest] at answer
    exact ⟨_, answer⟩
  · refine ⟨.message "invalid batch identity", ?_⟩
    rw [Store.completedResult, ensure_not valid]
    rfl

end Node.Sound

namespace Pair

variable {allow : Choice D → Prop} {a b : Position X identity} {p s : Node D}
  {batch : Batch Change ℕ} {e : RefEntry D}

variable (alone : ∀ choice, allow choice → choice.others = [])
include alone

theorem commit_known (mem : e ∈ a.committed.entries) :
    Triple allow (Crashed allow .resolve a) (Since .resolve a) (commit X e.batch)
      (fun r pair => r = (e.receipt X.schema).result ∧ Since .resolve a pair)
      (Failed allow .resolve a fun _ _ => False) := by
  refine recover_then alone fun _ h stage p s steps agree => ?_
  have inside : e ∈ h.entries := (show h = a.committed from steps.committed_eq) ▸ mem
  refine .known (primary_read alone steps agree fun _ =>
    Call.reading_of (agree.primary.completedResult_entry inside)) ?_
  exact Triple.pure _ fun _ here => ⟨rfl, _, steps, here.holds agree⟩

theorem commit_conflict (mem : e ∈ a.committed.entries)
    (named : batch.operationId = e.batch.operationId)
    (other : X.requestFingerprint batch.changes ≠ X.requestFingerprint e.batch.changes) :
    Triple allow (Crashed allow .resolve a) (Since .resolve a) (commit X batch)
      (fun _ _ => False) (Failed allow .resolve a fun _ _ => True) := by
  refine recover_then alone fun _ h stage p s steps agree => ?_
  have inside : e ∈ h.entries := (show h = a.committed from steps.committed_eq) ▸ mem
  obtain ⟨fault, failed⟩ := agree.primary.completedResult_conflict inside named other
  exact .bind (primary_error alone steps agree (fun _ => Call.reading_error failed)
    fun _ _ => trivial) fun _ _ _ _ _ => False.elim

/-- A captured base that waits for its confirmation holds a retry back. -/
theorem write_known {fail : Fault → Pair D → Prop} (mem : e ∈ a.history.entries) :
    Triple allow (Crashed allow .resolve a) (Since .resolve a) (write X e.batch)
      (fun answer pair => (answer = .ok (e.receipt X.schema).result ∨
        (Lossy allow ∨ ¬a.stage.Idle) ∧ ∃ f, answer = .error f) ∧ Since .resolve a pair) fail := by
  have inside : ∀ {b : Position X identity}, Steps .resolve a b → e ∈ b.history.entries :=
    fun steps => steps.history_grows.entries_prefix.subset mem
  refine fixPrimary fun p known => ?_
  obtain ⟨b, s, steps, agree⟩ := known
  obtain ⟨_, linked⟩ := b.history.chained.linked (inside steps)
  have found := agree.primary.operation_entry (inside steps)
  have kept := agree.primary.store.receipt?_entry (inside steps)
  have accepted : mismatched p.identity (some e) e.batch = false := by
    simp [mismatched, linked.identity_eq, linked.operationId_ne, agree.primary.identity_eq]
  have compatible : conflicts X (some (e.receipt X.schema)) e.batch = false := by
    have same : (e.receipt X.schema).requestDigest = X.schema.requestFingerprint e.batch.changes :=
      rfl
    rw [conflicts, Store.Represents.matchesRequest_eq (b.history.mem_receipts (inside steps)) rfl,
      ensure_of same]
    rfl
  refine .known (.attempt_known (primary_wait alone fun b s random agree =>
    operation_run agree e.batch.operationId random)) ?_
  refine .known (.look fun pair waiting => congrArg Node.identity waiting.1) ?_
  rw [found, accepted, if_neg (by simp)]
  refine .known (.attempt_known (primary_wait alone fun b s random agree =>
    receipt_run agree e.batch.operationId random)) ?_
  dsimp only
  rw [kept, compatible, if_neg (by simp)]
  have reconciled : Triple allow (Crashed allow .resolve a) _ (reconcile X) _ _ :=
    reconcile_spec alone (by simp)
  refine .bind (reconciled.attempt.weaken fun _ waiting => waiting.2) fun r => ?_
  cases r with
  | error fault =>
    refine .given fun why => ?_
    refine (refuse_since alone e.batch.operationId).strengthen ?_
    rintro answer pair ⟨f, rfl, _, c, steps, holds, _⟩
    exact ⟨.inr ⟨why.imp_left fun lost => lost.2, f, rfl⟩, c, steps, holds⟩
  | ok completed =>
    refine .any fun h => .any fun stage => .any fun p => .any fun s =>
      .given fun known => ?_
    obtain ⟨steps, agree⟩ := known
    refine .known (.attempt_known (primary_read alone steps agree fun _ =>
      Call.reading_of (agree.primary.completedResult_entry (inside steps)))) ?_
    exact Triple.pure _ fun _ here => ⟨.inl rfl, _, steps, here.holds agree⟩

/-- Nothing but the unanswered call has touched the pair. -/
def Settled (X : Engine D) (before pair : Pair D) : Prop :=
  pair = before ∨ ∃ call ∈ before.inflight, pair = (before.serve X call.1 call.2).1

section Settled

variable {before pair : Pair D} {c : Call D} {fail : Fault → Pair D → Prop}

omit alone in
theorem Settled.settle (settled : Settled X before pair) {choice : Choice D}
    (alone : choice.others = []) : Settled X before (pair.settle X choice) := by
  rcases settled with rfl | ⟨call, waiting, rfl⟩
  · simp only [Pair.settle, alone, List.foldl_nil]
    cases waiting : pair.inflight with
    | none => exact .inl rfl
    | some call =>
      by_cases land : choice.land = true
      · simp only [land, if_true]
        exact .inr ⟨call, waiting, rfl⟩
      · simp only [land]
        exact .inl rfl
  · rw [settle_answered alone (serve_inflight ..)]
    exact .inr ⟨call, waiting, rfl⟩

omit alone in
theorem Settled.primary_eq (settled : Settled X before pair) : pair.primary = before.primary := by
  rcases settled with rfl | ⟨call, _, rfl⟩
  · rfl
  · exact serve_primary ..

theorem primary_settled {r : c.Reply}
    (run : ∀ random, c.run X before.primary random = .ok (r, before.primary)) :
    Triple allow (Settled X before) (Settled X before) (onPrimary X c)
      (fun reply pair => reply = r ∧ Settled X before pair) fail := by
  refine Triple.step fun choice pair allowed settled => ?_
  have settled := settled.settle (alone choice allowed)
  dsimp only
  by_cases stops : choice.stopBefore = true
  · simp only [stops, if_true]
    exact settled
  · have same : { pair.settle X choice with primary := before.primary } = pair.settle X choice := by
      rw [← settled.primary_eq]
    simp only [stops, settled.primary_eq, run, same]
    exact told_reply (fun _ => settled) ⟨rfl, settled⟩

/-- Another request under the name of an applied one never gets past the primary. -/
theorem write_conflict (agree : Agree a before.primary before.secondary)
    (mem : e ∈ a.history.entries) (named : batch.operationId = e.batch.operationId)
    (other : X.requestFingerprint batch.changes ≠ X.requestFingerprint e.batch.changes) :
    Triple allow (Settled X before) (Settled X before) (write X batch)
      (fun answer pair => answer = .error (Coordinator.invalid batch.operationId) ∧
        Settled X before pair) fail := by
  have found := agree.primary.operation_entry mem
  rw [← named] at found
  have rejected : mismatched before.primary.identity (some e) batch = true := by
    have differs : e.batch ≠ batch := by
      intro same
      rw [same] at other
      exact other rfl
    simp [mismatched, differs]
  refine .known (.attempt_known (primary_settled alone
    (operation_run agree batch.operationId))) ?_
  refine .known (.look fun pair settled => congrArg Node.identity settled.primary_eq) ?_
  rw [found, rejected, if_pos rfl]
  exact Triple.pure _ fun _ settled => ⟨rfl, settled⟩

/-- A call the primary refuses leaves an answered pair as it is. -/
theorem primary_refused {fault : Fault} (answered : pair.inflight = none)
    (run : ∀ random, c.run X pair.primary random = .error fault) :
    Triple allow (· = pair) (· = pair) (onPrimary X c) (fun _ _ => False)
      (fun _ after => after = pair) := by
  refine Triple.step fun choice pair' allowed same => ?_
  subst same
  dsimp only
  rw [settle_answered (alone choice allowed) answered]
  by_cases stops : choice.stopBefore = true
  · simp only [stops, if_true]
  · simp only [stops, run]
    exact told_reply (fun _ => rfl) rfl

omit alone in
theorem commit_conflict_final {choices : ℕ → Choice D} (alone : ∀ n, (choices n).Alone)
    (holds : Holds a pair) (mem : e ∈ a.committed.entries)
    (named : batch.operationId = e.batch.operationId)
    (other : X.requestFingerprint batch.changes ≠ X.requestFingerprint e.batch.changes) (n : ℕ) :
    (commit X batch choices n pair).final = (recover X choices n pair).final := by
  refine Script.bind_final fun completed after n' ran => ?_
  have spec : Triple Choice.Alone _ _ _ _ (Failed Choice.Alone .resolve a fun _ _ => False) :=
    recover_spec fun _ alone => alone
  have met := spec choices alone n pair ⟨a, .refl, holds⟩
  rw [ran] at met
  obtain ⟨h, stage, p, s, ⟨steps, agree, _⟩, here⟩ := met
  have inside : e ∈ h.entries := (show h = a.committed from steps.committed_eq) ▸ mem
  obtain ⟨fault, failed⟩ := agree.primary.completedResult_conflict inside named other
  have run : ∀ random, (Call.completedResult batch).run X after.primary random = .error fault := by
    rw [here.primary_eq]
    exact fun _ => Call.reading_error failed
  have refused := primary_refused (fun _ (alone : Choice.Alone _) => alone) here.answered run
  exact (refused.bind fun _ _ _ _ _ => False.elim).final (fun _ same => same)
    (fun _ _ => False.elim) (fun _ _ same => same) alone rfl

end Settled

end Pair

end TerrapiVault.Replication
