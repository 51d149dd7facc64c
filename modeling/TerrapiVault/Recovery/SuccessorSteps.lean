import TerrapiVault.Recovery.Freeze

/-! What the calls on a loss successor do. All of them first see that neither a loss
nor an abort is recorded in the successor journal. -/
namespace TerrapiVault.Recovery

variable {T : Type → Type} {E : Env T} {trust other : Trust} {j j' : Journal T}
  {policy : LossPolicy}

namespace Journal

theorem readSuccessorAbort_eq_none :
    j.readSuccessorAbort E trust = .ok none ↔ j.successorAbort.join = none := by
  cases table : j.successorAbort.join with
  | none => simp [readSuccessorAbort, table]
  | some cell =>
    refine iff_of_false (fun h => ?_) (by simp)
    simp only [readSuccessorAbort, table, run_ok, reduceCtorEq, and_false, exists_false] at h

theorem ensureSuccessorNotAborted_eq_ok {u : Unit} :
    j.ensureSuccessorNotAborted E trust = .ok u ↔ j.successorAbort.join = none := by
  simp only [ensureSuccessorNotAborted, checked_ok]
  constructor
  · rintro ⟨_, read, rfl⟩
    exact readSuccessorAbort_eq_none.mp read
  · exact fun unaborted => ⟨none, readSuccessorAbort_eq_none.mpr unaborted, rfl⟩

theorem lossRecordExists_eq_false :
    j.lossRecordExists E trust = .ok false → j.loss.join = none := by
  intro h
  cases table : j.loss.join with
  | none => rfl
  | some cell => exact absurd h (lossRecordExists_of_loss (Option.join_eq_some_iff.mp table))

theorem ensureSuccessorLive_eq_ok (h : j.ensureSuccessorLive E trust = .ok ()) :
    j.loss.join = none := by
  simp only [ensureSuccessorLive, checked_ok] at h
  obtain ⟨_, read, rfl⟩ := h
  exact lossRecordExists_eq_false read

theorem requireParent_eq_ok {parent : SuccessorParent} :
    j.requireParent E trust = .ok parent ↔ j.readParent E trust = .ok (some parent) := by
  simp only [requireParent, bind_eq_ok, require_eq_ok]
  constructor
  · rintro ⟨_, read, same⟩
    exact same ▸ read
  · exact fun read => ⟨_, read, rfl⟩

theorem requireSuccessor_eq_ok {r : LossSuccessorRecord} :
    j.requireSuccessor E trust = .ok r ↔ j.readSuccessor E trust = .ok (some r) := by
  simp only [requireSuccessor, bind_eq_ok, require_eq_ok]
  constructor
  · rintro ⟨_, read, same⟩
    exact same ▸ read
  · exact fun read => ⟨_, read, rfl⟩

theorem readParent_eq_some {parent : SuccessorParent}
    (h : j.readParent E trust = .ok (some parent)) :
    ∃ cell, j.parent = some (some cell) ∧ E.decode cell.record = some parent ∧
      E.verifyLossHistorical parent.loss.token trust parent.loss.request =
        .ok parent.loss.certificateId ∧
      j.scope.membership = parent.loss.request.replacementMembership := by
  match table : j.parent with
  | none => simp [readParent, table] at h
  | some none => simp [readParent, table] at h
  | some (some cell) =>
    simp only [readParent, table, Env.verifyLoss, checked_ok, load_eq_ok, Option.some.injEq] at h
    obtain ⟨_, ⟨_, _, decoded⟩, ⟨_, verified, rfl⟩, membership, rfl⟩ := h
    exact ⟨cell, rfl, decoded, verified, membership⟩

/-- A successor journal whose successor may still be used. -/
structure Standing (E : Env T) (j : Journal T) (trust : Trust) (parent : SuccessorParent) :
    Prop where
  live : j.loss.join = none
  notAborted : j.successorAbort.join = none
  founded : j.readParent E trust = .ok (some parent)

theorem decideLossSuccessor_effect {request : LossSuccessorRequest} {token : String} {now : ℕ}
    {c : CommittedLossSuccessorTransition}
    (h : j.decideLossSuccessor E request token now trust policy = .ok (j', c)) :
    (∃ history, j.read E trust = .ok history ∧ history.head = none) ∧
      ∃ parent replacement, j.Standing E trust parent ∧ request.replacement = .ok replacement ∧
      ¬parent.retired.Contains replacement.member replacement.generation request.membership ∧
      j.scope.validateSuccessorRequest parent.loss.request request = .ok () ∧
      ((∃ old, j.readSuccessor E trust = .ok (some old) ∧ old.request = request ∧
          old.token = token ∧ j' = j) ∨
        j.successor.join = none ∧ ∃ certificate, j' = { j with
          successor := some (some (E.cell ⟨request, token, certificate, both false, none⟩)) }) := by
  simp only [decideLossSuccessor, checked_ok, ensureSuccessorNotAborted_eq_ok,
    requireParent_eq_ok] at h
  obtain ⟨_, _, history, read, none, live, notAborted, parent, founded, replacement, roled, fresh,
    valid, _, existing, known, h⟩ := h
  refine ⟨⟨history, read, none⟩, parent, replacement,
    ⟨ensureSuccessorLive_eq_ok live, notAborted, founded⟩, roled, fresh, valid, ?_⟩
  cases existing with
  | some old =>
    simp only [checked_ok] at h
    obtain ⟨⟨rfl, rfl⟩, _, _, rfl, _⟩ := h
    exact .inl ⟨old, known, rfl, rfl, rfl⟩
  | none =>
    simp only [saveSuccessor, insertCell, run_ok] at h
    obtain ⟨_, _, certificate, _, _, _, _, ⟨_, inserted, rfl⟩, rfl, _⟩ := h
    split_ifs at inserted with taken
    obtain rfl := Except.ok.inj inserted
    exact .inr ⟨by simpa using taken, certificate, rfl⟩

theorem saveSuccessorReplace_eq_ok {r : LossSuccessorRecord}
    (h : j.saveSuccessorReplace E r = .ok j') :
    j' = { j with successor := some (some (E.cell r)) } := by
  simp only [saveSuccessorReplace, run_ok] at h
  obtain ⟨_, rfl⟩ := h
  rfl

theorem acknowledgeLossSuccessor_effect {decision : CommittedLossSuccessorTransition}
    {member : Participant}
    (h : j.acknowledgeLossSuccessor E decision member trust policy = .ok j') :
    ∃ parent r i, j.Standing E trust parent ∧ j.readSuccessor E trust = .ok (some r) ∧
      (j' = j ∨ r.acknowledgements i = false ∧ j' = { j with successor := some (some (E.cell
        { r with acknowledgements := Function.update r.acknowledgements i true })) }) := by
  simp only [acknowledgeLossSuccessor, bind_eq_ok, ensureSuccessorNotAborted_eq_ok,
    requireParent_eq_ok, requireSuccessor_eq_ok] at h
  obtain ⟨_, _, _, live, _, notAborted, parent, founded, r, known, _, _, i, _, _, _, _, _, _, _, _,
    _, h⟩ := h
  refine ⟨parent, r, i, ⟨ensureSuccessorLive_eq_ok live, notAborted, founded⟩, known, ?_⟩
  by_cases done : r.acknowledgements i
  · rw [if_pos done, pure_eq, Except.ok.injEq] at h
    exact .inl h.symm
  · rw [if_neg done] at h
    exact .inr ⟨Bool.eq_false_iff.mpr done, saveSuccessorReplace_eq_ok h⟩

theorem completeLossSuccessor_effect {decision : CommittedLossSuccessorTransition} {id : Id}
    (h : j.completeLossSuccessor E decision id trust policy = .ok j') :
    ∃ parent r, j.Standing E trust parent ∧ j.readSuccessor E trust = .ok (some r) ∧
      r.acknowledgements = both true ∧ (j' = j ∧ r.completion = some id ∨
        r.completion = none ∧ j' = { j with
          successor := some (some (E.cell { r with completion := some id })) }) := by
  simp only [completeLossSuccessor, checked_ok, ensureSuccessorNotAborted_eq_ok,
    requireParent_eq_ok, requireSuccessor_eq_ok] at h
  obtain ⟨_, _, live, notAborted, parent, founded, r, known, ⟨_, all⟩, _, _, h⟩ := h
  refine ⟨parent, r, ⟨ensureSuccessorLive_eq_ok live, notAborted, founded⟩, known, all, ?_⟩
  cases completion : r.completion with
  | some old =>
    simp only [completion, checked_ok] at h
    obtain ⟨rfl, rfl⟩ := h
    exact .inl ⟨rfl, rfl⟩
  | none =>
    simp only [completion] at h
    exact .inr ⟨rfl, saveSuccessorReplace_eq_ok h⟩

theorem abortLossSuccessor_effect {cancellation : LossSuccessorAbort} {token : String} {now : ℕ}
    {c : CommittedLossSuccessorAbort}
    (h : j.abortLossSuccessor E cancellation token now trust policy = .ok (j', c)) :
    j.loss.join = none ∧ ∃ parent, j.readParent E trust = .ok (some parent) ∧
      (j' = j ∨ j.successorAbort.join = none ∧
        ∃ r certificate marked, j.readSuccessor E trust = .ok (some r) ∧ r.completion = none ∧
          j.markJournalFormatTwo E = .ok marked ∧ j' = { j with
            stored := marked.stored
            successorAbort := some (some (E.cell ⟨2, cancellation, token, certificate⟩)) }) := by
  simp only [abortLossSuccessor, checked_ok, requireParent_eq_ok] at h
  obtain ⟨_, _, _, live, parent, founded, _, _, existing, known, h⟩ := h
  refine ⟨ensureSuccessorLive_eq_ok live, parent, founded, ?_⟩
  cases existing with
  | some old =>
    simp only [run_ok] at h
    obtain ⟨_, _, _, _, rfl, _⟩ := h
    exact .inl rfl
  | none =>
    simp only [abortLossSuccessorNew, saveSuccessorAbort, insertCell, checked_ok,
      requireSuccessor_eq_ok] at h
    obtain ⟨r, found, _, unfinished, _, certificate, _, _, _, ⟨_, marked, mark, _, inserted, rfl⟩,
      _, _, rfl, _⟩ := h
    split_ifs at inserted with taken
    obtain rfl := Except.ok.inj inserted
    obtain ⟨text, rfl, _⟩ := markJournalFormatTwo_eq_ok mark
    exact .inr ⟨readSuccessorAbort_eq_none.mp known, r, certificate, _, found, unfinished, mark,
      rfl⟩

theorem fetchCompletedLossSuccessor_effect {request : LossSuccessorRequest}
    {c : CompletedLossSuccessorTransition}
    (h : j.fetchCompletedLossSuccessor E request trust policy = .ok c) :
    ∃ parent r, j.Standing E trust parent ∧ j.readSuccessor E trust = .ok (some r) ∧
      r.request = request ∧ r.completion = some c.completion ∧ c.request = request ∧
      j.scope.validateSuccessorRequest parent.loss.request request = .ok () := by
  simp only [fetchCompletedLossSuccessor, fetchLossSuccessor, checked_ok,
    ensureSuccessorNotAborted_eq_ok, requireParent_eq_ok, requireSuccessor_eq_ok,
    require_eq_ok] at h
  obtain ⟨_, ⟨_, _, _, _, live, notAborted, parent, founded, valid, _, r, known, rfl, _⟩, _, _, _,
    _, r', known', completion, completed, rfl⟩ := h
  obtain rfl := Option.some.inj (ok_unique known known')
  exact ⟨parent, r, ⟨ensureSuccessorLive_eq_ok live, notAborted, founded⟩, known, rfl, completed,
    rfl, valid⟩

end Journal

/-- Only `decide_loss` touches the loss tables, and every other call needs them empty. -/
theorem Call.run_cases {c : Call} (positive : 0 < j.scope.initialRevision)
    (h : c.run E trust j = .ok j') :
    (∃ request token now policy committed, c = .decideLoss request token now policy ∧
      j.decideLoss E request token now trust policy = .ok (j', committed)) ∨
    j'.loss = j.loss ∧ j'.lossChain = j.lossChain ∧ j'.lossHead = j.lossHead ∧
      j'.scope = j.scope ∧ j'.parent = j.parent ∧ j.loss.join = none ∧
      ((∃ t, c = .transition t) ∨ j'.history = j.history) := by
  cases c with
  | transition c =>
    have none : j.loss.join = none := by
      cases table : j.loss.join with
      | none => rfl
      | some cell =>
        exact absurd h (JournalCall.run_of_loss (Option.join_eq_some_iff.mp table))
    obtain ⟨_, _, _, _, rfl, _⟩ := c.run_frame positive h
    exact .inr ⟨rfl, rfl, rfl, rfl, rfl, none, .inl ⟨c, rfl⟩⟩
  | decideLoss request token now policy =>
    obtain ⟨committed, decided⟩ := fst_eq_ok.mp h
    exact .inl ⟨request, token, now, policy, committed, rfl, decided⟩
  | decideLossSuccessor request token now policy =>
    obtain ⟨c, decided⟩ := fst_eq_ok.mp h
    obtain ⟨_, _, _, standing, _, _, _, ⟨_, _, _, _, rfl⟩ | ⟨_, _, rfl⟩⟩ :=
      Journal.decideLossSuccessor_effect decided
    all_goals exact .inr ⟨rfl, rfl, rfl, rfl, rfl, standing.live, .inr rfl⟩
  | acknowledgeLossSuccessor decision member policy =>
    obtain ⟨_, _, _, standing, _, rfl | ⟨_, rfl⟩⟩ := Journal.acknowledgeLossSuccessor_effect h
    all_goals exact .inr ⟨rfl, rfl, rfl, rfl, rfl, standing.live, .inr rfl⟩
  | completeLossSuccessor decision id policy =>
    obtain ⟨_, _, standing, _, _, ⟨rfl, _⟩ | ⟨_, rfl⟩⟩ := Journal.completeLossSuccessor_effect h
    all_goals exact .inr ⟨rfl, rfl, rfl, rfl, rfl, standing.live, .inr rfl⟩
  | abortLossSuccessor cancellation token now policy =>
    obtain ⟨c, aborted⟩ := fst_eq_ok.mp h
    obtain ⟨live, _, _, rfl | ⟨_, _, _, _, _, _, _, rfl⟩⟩ :=
      Journal.abortLossSuccessor_effect aborted
    all_goals exact .inr ⟨rfl, rfl, rfl, rfl, rfl, live, .inr rfl⟩

theorem Call.run_scope {c : Call} (positive : 0 < j.scope.initialRevision)
    (h : c.run E trust j = .ok j') : j'.scope = j.scope ∧ j'.parent = j.parent := by
  obtain ⟨_, _, _, _, _, _, decided⟩ | ⟨_, _, _, scope, parent, _⟩ := c.run_cases positive h
  · obtain ⟨_, _, _, _, rfl⟩ := Journal.decideLoss_frame decided
    exact ⟨rfl, rfl⟩
  · exact ⟨scope, parent⟩

end TerrapiVault.Recovery
