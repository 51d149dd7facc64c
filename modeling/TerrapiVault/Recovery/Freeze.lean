import TerrapiVault.Recovery.LossChain

/-! A recorded loss freezes its journal. No call on an ordinary transition or on a
loss successor succeeds any more, and the only change left is one more superseding
loss at the end of the chain. -/
namespace TerrapiVault.Recovery

open Replication (Result)

variable {T : Type → Type}

/-- Every call that may change a journal. -/
inductive Call where
  | transition (c : JournalCall)
  | decideLoss (request : LossRequest) (token : String) (now : ℕ) (policy : LossPolicy)
  | decideLossSuccessor (request : LossSuccessorRequest) (token : String) (now : ℕ)
    (policy : LossPolicy)
  | acknowledgeLossSuccessor (decision : CommittedLossSuccessorTransition) (member : Participant)
    (policy : LossPolicy)
  | completeLossSuccessor (decision : CommittedLossSuccessorTransition) (id : Id)
    (policy : LossPolicy)
  | abortLossSuccessor (abort : LossSuccessorAbort) (token : String) (now : ℕ)
    (policy : LossPolicy)

def Call.run (E : Env T) (trust : Trust) (j : Journal T) : Call → Result (Journal T)
  | .transition c => c.run E trust j
  | .decideLoss request token now policy => do
    let (next, _) ← j.decideLoss E request token now trust policy
    pure next
  | .decideLossSuccessor request token now policy => do
    let (next, _) ← j.decideLossSuccessor E request token now trust policy
    pure next
  | .acknowledgeLossSuccessor decision member policy =>
    j.acknowledgeLossSuccessor E decision member trust policy
  | .completeLossSuccessor decision id policy => j.completeLossSuccessor E decision id trust policy
  | .abortLossSuccessor cancellation token now policy => do
    let (next, _) ← j.abortLossSuccessor E cancellation token now trust policy
    pure next

/-- What a call on an ordinary transition hands out. Only `inspected` evidence cannot
stand for a live transition. -/
inductive Handed where
  | written
  | committed (c : CommittedTransition)
  | completed (c : CompletedTransition)
  | inspected (c : HistoricalCompletedTransition)

/-- The calls on an ordinary transition, writing and reading. -/
inductive TransitionCall where
  | write (c : JournalCall)
  | fetch (request : Request) (policy : Policy)
  | fetchCompleted (request : Request) (policy : Policy)
  | fetchCompletedRevision (request : Request) (policy : Policy)

def TransitionCall.hands (E : Env T) (trust : Trust) (j : Journal T) :
    TransitionCall → Result Handed
  | .write c => do
    let _ ← c.run E trust j
    pure .written
  | .fetch request policy => do
    let committed ← j.fetch E request trust policy
    pure (.committed committed)
  | .fetchCompleted request policy => do
    let completed ← j.fetchCompleted E request trust policy
    pure (.completed completed)
  | .fetchCompletedRevision request policy => do
    let inspected ← j.fetchCompletedRevision E request trust policy
    pure (.inspected inspected)

variable {E : Env T} {trust : Trust} {j j' : Journal T} {cell : Cell T LossRecord}

namespace Journal

theorem lossRecordExists_of_loss (recorded : j.loss = some (some cell)) :
    j.lossRecordExists E trust ≠ .ok false := by
  intro h
  simp only [lossRecordExists, recorded, readRecord, run_ok] at h
  obtain ⟨_, ⟨chain, read, rfl⟩, none⟩ := h
  obtain ⟨first, rest, _, rfl⟩ := (readLossHistory_some recorded).mp read
  simp [List.getLast?_cons] at none

theorem fetch_of_loss {request : Request} {policy : Policy} {c : CommittedTransition}
    (recorded : j.loss = some (some cell)) : j.fetch E request trust policy ≠ .ok c := by
  intro h
  simp only [fetch, checked_ok] at h
  obtain ⟨_, _, _, read, rfl, _⟩ := h
  exact lossRecordExists_of_loss recorded read

end Journal

theorem JournalCall.run_of_loss {c : JournalCall} (recorded : j.loss = some (some cell)) :
    c.run E trust j ≠ .ok j' :=
  fun h => Journal.lossRecordExists_of_loss recorded (c.run_opens h).2

/-- What a run after a loss may still do: append superseding losses. -/
structure Journal.Appended (E : Env T) (j j' : Journal T) : Prop where
  kept : ∃ stored table head,
    j' = { j with stored := stored, lossChain := table, lossHead := head }
  rows : ∃ added, j'.lossChain.getD [] = j.lossChain.getD [] ++ added ∧
    (added = [] → j' = j) ∧ ∀ row ∈ added, ∃ r : LossRecord,
      E.decode row.record = some r ∧ r.request.supersedes.isSome

theorem Journal.Appended.refl : j.Appended E j :=
  ⟨⟨_, _, _, rfl⟩, [], by simp, fun _ => rfl, by simp⟩

theorem Journal.Appended.trans {j'' : Journal T} (first : j.Appended E j')
    (second : j'.Appended E j'') : j.Appended E j'' := by
  obtain ⟨⟨_, _, _, same⟩, added, rows, none, superseding⟩ := first
  obtain ⟨⟨_, _, _, same'⟩, added', rows', none', superseding'⟩ := second
  refine ⟨⟨_, _, _, same'.trans (by rw [same])⟩, added ++ added', ?_, ?_, ?_⟩
  · rw [rows', rows, List.append_assoc]
  · intro empty
    obtain ⟨left, right⟩ := List.append_eq_nil_iff.mp empty
    rw [none' right, none left]
  · rw [List.forall_mem_append]
    exact ⟨superseding, superseding'⟩

theorem decideLoss_of_loss {request : LossRequest} {token : String} {now : ℕ}
    {policy : LossPolicy} {c : CommittedLoss} (recorded : j.loss = some (some cell))
    (h : j.decideLoss E request token now trust policy = .ok (j', c)) : j.Appended E j' := by
  obtain ⟨_, _, _, chain, _, _, _, read, ⟨_, _, _, _, rfl, _⟩ | ⟨_, new⟩⟩ :=
    Journal.decideLoss_eq_ok h
  · exact .refl
  obtain ⟨first, rest, reads, rfl⟩ := (Journal.readLossHistory_some recorded).mp read
  obtain ⟨_, certificate, found, next, _, _, _, saved, _⟩ := Journal.decideLossNew_eq_ok new
  obtain ⟨_, empty, _⟩ | ⟨s, prev, _, supersedes, last, _, _, _, rfl⟩ :=
    Journal.lossExpected_eq_ok found
  · cases empty
  rw [Journal.saveLoss, supersedes] at saved
  obtain ⟨_, marked, _, rfl⟩ := Journal.saveChainRecord_eq_ok (next ▸ reads.below last) saved
  refine ⟨⟨_, _, _, rfl⟩, [E.row request.revision ⟨request, token, certificate⟩], rfl, by simp, ?_⟩
  rw [List.forall_mem_singleton]
  exact ⟨_, E.decode_encode _, by simp [supersedes]⟩

theorem Call.run_of_loss {c : Call} (recorded : j.loss = some (some cell))
    (h : c.run E trust j = .ok j') : j.Appended E j' := by
  have live : j.ensureSuccessorLive E trust ≠ .ok () := by
    intro h
    simp only [Journal.ensureSuccessorLive, checked_ok] at h
    obtain ⟨_, read, rfl⟩ := h
    exact Journal.lossRecordExists_of_loss recorded read
  cases c with
  | transition c => exact absurd h (JournalCall.run_of_loss recorded)
  | decideLoss request token now policy =>
    obtain ⟨c, decided⟩ := fst_eq_ok.mp h
    exact decideLoss_of_loss recorded decided
  | decideLossSuccessor request token now policy =>
    simp only [run, Journal.decideLossSuccessor, checked_ok] at h
    obtain ⟨_, ⟨_, _, _, _, _, checked, _⟩, _⟩ := h
    exact absurd checked live
  | acknowledgeLossSuccessor decision member policy =>
    simp only [run, Journal.acknowledgeLossSuccessor, run_ok] at h
    obtain ⟨_, checked, _⟩ := h
    exact absurd checked live
  | completeLossSuccessor decision id policy =>
    simp only [run, Journal.completeLossSuccessor, run_ok] at h
    obtain ⟨_, _, checked, _⟩ := h
    exact absurd checked live
  | abortLossSuccessor cancellation token now policy =>
    simp only [run, Journal.abortLossSuccessor, run_ok] at h
    obtain ⟨_, ⟨_, _, _, checked, _⟩, _⟩ := h
    exact absurd checked live

theorem TransitionCall.hands_of_loss {c : TransitionCall} {handed : Handed}
    (recorded : j.loss = some (some cell)) (h : c.hands E trust j = .ok handed) :
    ∃ request policy evidence, c = .fetchCompletedRevision request policy ∧
      handed = .inspected evidence := by
  cases c with
  | write c =>
    obtain ⟨next, ran, _⟩ := bind_eq_ok.mp h
    exact absurd ran (JournalCall.run_of_loss recorded)
  | fetch request policy =>
    obtain ⟨committed, fetched, _⟩ := bind_eq_ok.mp h
    exact absurd fetched (Journal.fetch_of_loss recorded)
  | fetchCompleted request policy =>
    obtain ⟨completed, fetched, _⟩ := bind_eq_ok.mp h
    obtain ⟨committed, fetched, _⟩ := bind_eq_ok.mp fetched
    exact absurd fetched (Journal.fetch_of_loss recorded)
  | fetchCompletedRevision request policy =>
    obtain ⟨evidence, _, same⟩ := bind_eq_ok.mp h
    exact ⟨request, policy, evidence, rfl, (Except.ok.inj same).symm⟩

/-- After a loss no call on an ordinary transition succeeds but the inspection of a
completed revision, and every later run only appends superseding losses. -/
theorem loss_freezes (recorded : j.loss = some (some cell))
    (run : Relation.ReflTransGen (fun a b => ∃ (trust : Trust) (c : Call),
      c.run E trust a = .ok b) j j') :
    (∀ (trust : Trust) (c : TransitionCall) handed, c.hands E trust j' = .ok handed →
      ∃ request policy evidence, c = .fetchCompletedRevision request policy ∧
        handed = .inspected evidence) ∧
    j'.history = j.history ∧ j'.aborts = j.aborts ∧ j'.head = j.head ∧ j.Appended E j' := by
  have appended : j.Appended E j' := by
    induction run with
    | refl => exact .refl
    | tail _ step ih =>
      obtain ⟨trust, c, ran⟩ := step
      obtain ⟨stored, table, head, rfl⟩ := ih.kept
      exact ih.trans (c.run_of_loss recorded ran)
  obtain ⟨stored, table, head, same⟩ := appended.kept
  have recorded' : j'.loss = some (some cell) := by
    rw [same]
    exact recorded
  refine ⟨fun trust c handed h => c.hands_of_loss recorded' h, ?_, ?_, ?_, appended⟩
  all_goals rw [same]

namespace Sample

/-- One call, under any trust. -/
def Steps (a b : Journal fun α => α) : Prop := ∃ (trust : Trust) (c : Call), c.run env trust a = .ok b

theorem completed_steps : Relation.ReflTransGen Steps created completed := by
  have first : Relation.ReflTransGen Steps created decided :=
    .single ⟨trusted, .transition (decision 1), run_decision⟩
  have second : Relation.ReflTransGen Steps created halfway :=
    first.tail ⟨trusted, .transition (acknowledgement 1 0), run_acknowledgement.1⟩
  have third : Relation.ReflTransGen Steps created acknowledged :=
    second.tail ⟨trusted, .transition (acknowledgement 1 1), run_acknowledgement.2⟩
  exact third.tail ⟨trusted, .transition (completion 1), run_completion⟩

theorem lost_step : Steps completed lost := by
  obtain ⟨c, decided⟩ := decideLoss_lost
  refine ⟨trusted, .decideLoss (loss 2) (token .loss 2) 0 lossPolicy, ?_⟩
  simp only [Call.run, decided, ok_bind]
  rfl

theorem loss_freezes_superseded : ∃ j' c,
    lost.decideLoss env (loss 3) (token .loss 3) 0 trusted lossPolicy = .ok (j', c) ∧
    (∀ (trust : Trust) (c : TransitionCall) handed, c.hands env trust j' = .ok handed →
      ∃ request policy evidence, c = .fetchCompletedRevision request policy ∧
        handed = .inspected evidence) ∧
    j'.history = lost.history ∧ j'.aborts = lost.aborts ∧ j'.head = lost.head ∧
    lost.Appended env j' := by
  obtain ⟨cell, recorded⟩ := Option.isSome_iff_exists.mp
    (show lost.loss.join.isSome by decide +kernel)
  obtain ⟨j', _, decided⟩ := lost_chained.decideLoss (by decide)
  refine ⟨j', _, decided, loss_freezes (Option.join_eq_some_iff.mp recorded) (.single ?_)⟩
  refine ⟨trusted, .decideLoss (loss 3) (token .loss 3) 0 lossPolicy, ?_⟩
  simp only [Call.run, decided, ok_bind]
  rfl

end Sample

end TerrapiVault.Recovery
