import TerrapiVault.Recovery.LedgerRead

/-! What each call on ordinary transitions does to the events: nothing, one more
event at the end, or a change of an open decision, which is the last event. -/
namespace TerrapiVault.Recovery

open Replication (ensure_eq_ok)

variable {T : Type → Type} {E : Env T} {trust : Trust} {events front : List Event} {e : Event}
  {p p' : Position} {j j' : Journal T} {s : JournalScope} {r : Record} {a : AbortRecord}
  {token : String} {now : ℕ} {policy : Policy} {c : CommittedTransition}

theorem trail_below (h : E.trail s (events ++ [e]) = .ok p) :
    ∀ d ∈ events, d.revision < e.revision := by
  intro d mem
  exact (List.pairwise_append.mp (trail_ascending h)).2.2 d mem e (by simp)

theorem forall₂_concat_right {α β : Type} {R : α → β → Prop} {l : List α} {l' : List β} {b : β}
    (h : List.Forall₂ R l (l' ++ [b])) :
    ∃ front last, l = front ++ [last] ∧ List.Forall₂ R front l' ∧ R last b := by
  have tail := List.forall₂_drop_append l l' [b] h
  obtain ⟨last, rest, related, none, split⟩ := List.forall₂_cons_right_iff.mp tail
  rw [List.forall₂_nil_right_iff] at none
  refine ⟨l.take l'.length, last, ?_, List.forall₂_take_append l l' [b] h, related⟩
  rw [← none, ← split, List.take_append_drop]

theorem forall₂_mem_right {α β : Type} {R : α → β → Prop} {l : List α} {l' : List β} {b : β}
    (h : List.Forall₂ R l l') (mem : b ∈ l') : ∃ a ∈ l, R a b := by
  induction h with
  | nil => cases mem
  | cons related _ ih =>
    rcases List.mem_cons.mp mem with rfl | mem
    · exact ⟨_, List.mem_cons_self, related⟩
    · obtain ⟨a, inside, related⟩ := ih mem
      exact ⟨a, List.mem_cons_of_mem _ inside, related⟩

theorem JournalScope.chain_request {r' : Record} (same : r'.request = r.request)
    (effective : Option Record) (previous : Option ℕ) :
    s.chain effective previous r' = s.chain effective previous r := by
  simp only [chain, same]

theorem trail_revise {r' : Record} (same : r'.request = r.request)
    (h : E.trail s (front ++ [.decided r]) = .ok p) :
    ∃ p', E.trail s (front ++ [.decided r']) = .ok p' := by
  obtain ⟨q, before, stepped⟩ := trail_concat.mp h
  simp only [Position.step, unit_bind_eq_ok, ensure_eq_ok] at stepped
  obtain ⟨fresh, chained, _⟩ := stepped
  obtain ⟨p', revised⟩ : ∃ p', q.step E s (.decided r') = .ok p' := by
    simp only [Position.step, unit_bind_eq_ok, ensure_eq_ok, pure_eq, same,
      JournalScope.chain_request same]
    exact ⟨_, fresh, chained, rfl⟩
  exact ⟨p', trail_concat.mpr ⟨q, before, revised⟩⟩

theorem trail_cancel (target : E.decidedAbort a.abort r = .ok ())
    (h : E.trail s (front ++ [.decided r]) = .ok p) :
    ∃ p', E.trail s (front ++ [.cancelled r a]) = .ok p' := by
  obtain ⟨q, before, stepped⟩ := trail_concat.mp h
  simp only [Position.step, unit_bind_eq_ok, ensure_eq_ok] at stepped
  obtain ⟨fresh, chained, _⟩ := stepped
  obtain ⟨p', cancelled⟩ : ∃ p', q.step E s (.cancelled r a) = .ok p' := by
    simp only [Position.step, unit_bind_eq_ok, ensure_eq_ok, pure_eq]
    exact ⟨_, fresh, chained, target, rfl⟩
  exact ⟨p', trail_concat.mpr ⟨q, before, cancelled⟩⟩

theorem records_below {rows : List (Row T Record)}
    (stored : List.Forall₂ (Row.Holds E Record.revision) rows (recordsOf events))
    (next : E.trail s (events ++ [e]) = .ok p) : ∀ row ∈ rows, row.revision < e.revision := by
  intro row mem
  have inside : row.revision ∈ (recordsOf events).map Record.revision :=
    holds_revisions stored ▸ List.mem_map_of_mem mem
  obtain ⟨r, mem, same⟩ := List.mem_map.mp inside
  obtain ⟨d, mem, found⟩ := List.mem_filterMap.mp mem
  rw [← same, Record.revision, Event.record_revision found]
  exact trail_below next d mem

theorem aborts_below {rows : List (Row T AbortRecord)}
    (stored : List.Forall₂ (Row.Holds E AbortRecord.revision) rows (abortsOf events))
    (next : E.trail s (events ++ [e]) = .ok p) : ∀ row ∈ rows, row.revision < e.revision := by
  intro row mem
  have inside : row.revision ∈ (abortsOf events).map AbortRecord.revision :=
    holds_revisions stored ▸ List.mem_map_of_mem mem
  obtain ⟨a, mem, same⟩ := List.mem_map.mp inside
  obtain ⟨d, mem, found⟩ := List.mem_filterMap.mp mem
  have coherent := trail_coherent next d (by simp [mem])
  rw [← same, AbortRecord.revision, coherent.abort_revision found]
  exact trail_below next d mem

theorem insertRow_last {α : Type} {rows : List (Row T α)} (row : Row T α)
    (below : ∀ r ∈ rows, r.revision < row.revision) : insertRow rows row = .ok (rows ++ [row]) := by
  have fresh : ¬∃ r ∈ rows, r.revision = row.revision := by
    rintro ⟨r, mem, same⟩
    exact (below r mem).ne same
  rw [insertRow, if_neg fresh, Table.put_last _ below]
  rfl

theorem Position.lastRevision_step (h : p.step E s e = .ok p') :
    p'.lastRevision s = e.revision := by
  rw [lastRevision, (step_eq_ok h).2.1, Option.getD_some]

namespace Journal

theorem save_layout (layout : j.Layout E events p)
    (stepped : p.step E j.scope (.decided r) = .ok p') (h : j.save E r = .ok j') :
    E.bytes (E.encode r) ≤ maxRecord ∧
      j' = { j with
        history := j.history ++ [E.row r.request.revision r], head := r.request.revision } ∧
      j'.Layout E (events ++ [.decided r]) p' := by
  have next : E.trail j.scope (events ++ [.decided r]) = .ok p' :=
    trail_concat.mpr ⟨p, layout.trail, stepped⟩
  have inserted := insertRow_last (E.row r.request.revision r) (records_below layout.history next)
  simp only [save, checked_ok, inserted, exists_eq_left'] at h
  obtain ⟨fits, rfl⟩ := h
  refine ⟨fits, rfl, ?_, ?_, next, (Position.lastRevision_step stepped).symm⟩
  · rw [recordsOf_append]
    exact List.rel_append layout.history (.cons ⟨E.decode_encode r, rfl⟩ .nil)
  · rw [abortsOf_append, abortsOf_singleton]
    simpa [Event.abort?] using layout.aborts

theorem markJournalFormatTwo_eq_ok (h : j.markJournalFormatTwo E = .ok j') :
    ∃ text, j' = { j with stored := text } ∧ ∃ stored, E.decode j.stored = some stored ∧
      E.bytes text ≤ maxScope ∧ (stored.marker.isSome ∧ text = j.stored ∨
        text = E.encode { stored with marker := some journalFormatTwo }) := by
  simp only [markJournalFormatTwo, Env.parse, bind_eq_ok, ensure_eq_ok, require_eq_ok] at h
  obtain ⟨_, fits, stored, decoded, h⟩ := h
  by_cases marked : stored.marker.isSome
  · rw [if_pos marked, pure_eq, Except.ok.injEq] at h
    exact ⟨j.stored, h.symm, stored, decoded, fits, .inl ⟨marked, rfl⟩⟩
  · simp only [marked, if_false, bind_eq_ok, ensure_eq_ok, pure_inj, Bool.false_eq_true] at h
    obtain ⟨_, fits, rfl⟩ := h
    exact ⟨_, rfl, stored, decoded, fits, .inr rfl⟩

theorem saveAbort_eq_ok (below : ∀ row ∈ j.aborts.getD [], row.revision < a.abort.abortedRevision)
    (h : j.saveAbort E a = .ok j') :
    E.bytes (E.encode a) ≤ maxRecord ∧ ∃ marked, j.markJournalFormatTwo E = .ok marked ∧
      j' = { j with
        stored := marked.stored
        aborts := some (j.aborts.getD [] ++ [E.row a.abort.abortedRevision a]) } := by
  have inserted := insertRow_last (E.row a.abort.abortedRevision a) below
  simp only [saveAbort, checked_ok, inserted, exists_eq_left'] at h
  obtain ⟨fits, marked, mark, rfl⟩ := h
  obtain ⟨text, rfl, _⟩ := markJournalFormatTwo_eq_ok mark
  exact ⟨fits, _, mark, rfl⟩

theorem abort_layout {stored : T StoredScope} {head : ℕ} (layout : j.Layout E events p)
    (trail : E.trail j.scope (front ++ [e]) = .ok p')
    (records : recordsOf (front ++ [e]) = recordsOf events)
    (aborts : abortsOf (front ++ [e]) = abortsOf events ++ [a]) (lastHead : head = e.revision) :
    Layout E { j with
      stored := stored
      aborts := some (j.aborts.getD [] ++ [E.row a.abort.abortedRevision a])
      head := head } (front ++ [e]) p' := by
  refine ⟨?_, ?_, trail, ?_⟩
  · rw [records]
    exact layout.history
  · rw [aborts]
    exact List.rel_append layout.aborts (.cons ⟨E.decode_encode a, rfl⟩ .nil)
  · obtain ⟨_, _, stepped⟩ := trail_concat.mp trail
    exact lastHead.trans (Position.lastRevision_step stepped).symm

theorem replace_layout {r' : Record} (layout : j.Layout E (front ++ [.decided r]) p)
    (same : r'.request.revision = r.request.revision)
    (trail : E.trail j.scope (front ++ [.decided r']) = .ok p') (h : j.replace E r' = .ok j') :
    E.bytes (E.encode r') ≤ maxRecord ∧ ∃ rows row, j.history = rows ++ [row] ∧
      List.Forall₂ (Row.Holds E Record.revision) rows (recordsOf front) ∧
      j' = { j with history := rows ++ [E.row r'.request.revision r'] } ∧
      j'.Layout E (front ++ [.decided r']) p' := by
  have stored := layout.history
  rw [recordsOf_append] at stored
  obtain ⟨rows, row, split, rowsStored, holds⟩ := forall₂_concat_right stored
  have other : ∀ row ∈ rows, row.revision ≠ r'.request.revision := fun row mem =>
    (records_below rowsStored trail row mem).ne
  simp only [replace, checked_ok] at h
  obtain ⟨fits, _, rfl⟩ := h
  have replaced : j.history.map (fun row => if row.revision = r'.request.revision then
      E.row r'.request.revision r' else row) = rows ++ [E.row r'.request.revision r'] := by
    rw [split, List.map_append, List.map_cons, List.map_nil, if_pos (holds.2.trans same.symm)]
    congr 1
    exact (List.map_congr_left fun row mem => if_neg (other row mem)).trans (List.map_id _)
  refine ⟨fits, rows, row, split, rowsStored, by rw [replaced], ?_, ?_, trail, ?_⟩
  · rw [replaced, recordsOf_append]
    exact List.rel_append rowsStored (.cons ⟨E.decode_encode r', rfl⟩ .nil)
  · simpa [abortsOf_singleton, Event.abort?] using layout.aborts
  · obtain ⟨_, _, stepped⟩ := trail_concat.mp layout.trail
    obtain ⟨_, _, stepped'⟩ := trail_concat.mp trail
    rw [Position.lastRevision_step stepped']
    exact (layout.head.trans (Position.lastRevision_step stepped)).trans same.symm

end Journal

/-- The record `decide` writes. -/
def Record.opened (request : Request) (token : String) : Record := ⟨request, token, both false, none⟩

namespace Journal

theorem decideNew_effect {request : Request} (layout : j.Layout E events p)
    (h : j.decideNew E (p.history j.scope events) request token now trust policy = .ok (j', c)) :
    (∀ a ∈ abortsOf events, a.abort.abortedRequestId ≠ request.id) ∧
      (∃ v, E.verifyIssuance token trust request now = .ok v ∧
        c = ⟨request, token, v.tokenDigest, v.certificateId, both false, none⟩) ∧
      (∀ i, policy.prepared j.scope request (request.participants i) = .ok ()) ∧
      E.bytes (E.encode (Record.opened request token)) ≤ maxRecord ∧
      j' = { j with
        history := j.history ++ [E.row request.revision (Record.opened request token)]
        head := request.revision } ∧
      ∃ p', j'.Layout E (events ++ [.decided (.opened request token)]) p' := by
  simp only [decideNew, checked_ok] at h
  obtain ⟨_, ⟨unused, notAborted⟩, chained, v, verified, first, second, _, saved, save, rfl, rfl⟩ :=
    h
  have stepped : ∃ p', p.step E j.scope (.decided (.opened request token)) = .ok p' := by
    simp only [Position.step, unit_bind_eq_ok, ensure_eq_ok, pure_eq]
    exact ⟨_, unused, chained, rfl⟩
  obtain ⟨p', stepped⟩ := stepped
  obtain ⟨fits, same, written⟩ := save_layout layout stepped save
  refine ⟨notAborted, ⟨v, verified, rfl⟩, ?_, fits, same, p', written⟩
  intro i
  rcases participant_cases i with rfl | rfl
  · exact first
  · exact second

theorem decide_effect {request : Request} (layout : j.Layout E events p)
    (h : j.decide E request token now trust policy = .ok (j', c)) :
    j.Admits E trust events ∧ j.lossRecordExists E trust = .ok false ∧
      ((j' = j ∧ ∃ r, p.effective = some r ∧ r.request = request ∧ r.token = token ∧
          E.committed r trust = .ok c) ∨
        j.decideNew E (p.history j.scope events) request token now trust policy = .ok (j', c)) := by
  simp only [decide, checked_ok] at h
  obtain ⟨_, _, old, read, lost, checked, rfl, _, _, h⟩ := h
  obtain ⟨admits, rfl⟩ := layout.read read
  refine ⟨admits, checked, ?_⟩
  cases head : ((p.history j.scope events).head.filter fun r => r.request = request) with
  | some r =>
    simp only [head, checked_ok] at h
    obtain ⟨sameToken, committed, fetched, rfl, rfl⟩ := h
    obtain ⟨effective, same⟩ := Option.filter_eq_some_iff.mp head
    exact .inl ⟨rfl, r, effective, of_decide_eq_true same, sameToken, fetched⟩
  | none =>
    simp only [head] at h
    exact .inr h

theorem Admits.completion (admits : j.Admits E trust events) (mem : r ∈ recordsOf events) :
    ∀ id ∈ r.completion, id ≠ zeroId ∧ r.acknowledgements = both true := by
  obtain ⟨row, _, load⟩ := forall₂_mem_right admits.records mem
  exact (loadRecord_eq_ok.mp load).2.1

end Journal

theorem liveOf_subset_recordsOf (mem : r ∈ liveOf events) : r ∈ recordsOf events := by
  obtain ⟨d, inside, found⟩ := List.mem_filterMap.mp mem
  refine List.mem_filterMap.mpr ⟨d, inside, ?_⟩
  cases d <;> simp_all [Event.live?, Event.record?]

theorem effective_mem_liveOf (h : E.trail s events = .ok p) (effective : p.effective = some r) :
    r ∈ liveOf events :=
  List.mem_of_getLast? ((trail_effective h).1.symm.trans effective)

theorem committed_tokenDigest (h : E.committed r trust = .ok c) :
    c.tokenDigest = E.tokenDigest r.token := by
  simp only [Env.committed, run_ok] at h
  obtain ⟨v, verified, rfl⟩ := h
  exact Env.verifyHistorical_tokenDigest verified

namespace Journal

theorem acknowledge_effect {decision : CommittedTransition} {member : Participant}
    (layout : j.Layout E events p) (h : j.acknowledge E decision member trust policy = .ok j') :
    j.Admits E trust events ∧ j.lossRecordExists E trust = .ok false ∧
      (∃ r, p.effective = some r ∧ r.request = decision.request ∧
        decision.tokenDigest = E.tokenDigest r.token ∧
        ∃ i, r.request.participants i = member ∧
        (j' = j ∧ r.acknowledgements i = true ∨
        ∃ front, events = front ++ [.decided r] ∧ r.completion = none ∧
          r.acknowledgements i = false ∧ policy.applied j.scope decision member = .ok () ∧
          j.replace E { r with
            acknowledgements := Function.update r.acknowledgements i true } = .ok j')) := by
  simp only [acknowledge, bind_eq_ok, ensure_eq_ok, require_eq_ok] at h
  obtain ⟨history, read, _, _, r, head, lost, checked, _, rfl, _, same, current, committed, _,
    digest, _, _, i, found, h⟩ := h
  obtain ⟨admits, rfl⟩ := layout.read read
  refine ⟨admits, checked, r, head, same, ?_, i, ?_, ?_⟩
  · exact digest.symm.trans (committed_tokenDigest committed)
  · simp only [position] at found
    split_ifs at found with first second <;> cases found
    · exact of_decide_eq_true first
    · exact of_decide_eq_true second
  · by_cases done : r.acknowledgements i
    · rw [if_pos done, pure_eq, Except.ok.injEq] at h
      exact .inl ⟨h.symm, done⟩
    · rw [if_neg done] at h
      simp only [bind_eq_ok] at h
      obtain ⟨_, applied, _, _, replaced⟩ := h
      have unfinished : r.completion = none := by
        cases completion : r.completion with
        | none => rfl
        | some id =>
          have mem := liveOf_subset_recordsOf (effective_mem_liveOf layout.trail head)
          have all := (admits.completion mem id completion).2
          exact absurd (congrFun all i) done
      obtain ⟨front, split⟩ := trail_open layout.trail head unfinished
      exact .inr ⟨front, split, unfinished, Bool.eq_false_iff.mpr done, applied, replaced⟩

theorem complete_effect {decision : CommittedTransition} {id : Id} (layout : j.Layout E events p)
    (h : j.complete E decision id trust policy = .ok j') :
    j.Admits E trust events ∧ j.lossRecordExists E trust = .ok false ∧ id ≠ zeroId ∧
      ∃ r, p.effective = some r ∧ r.request = decision.request ∧
        decision.tokenDigest = E.tokenDigest r.token ∧ r.acknowledgements = both true ∧
        (j' = j ∧ r.completion = some id ∨
        ∃ front, events = front ++ [.decided r] ∧ r.completion = none ∧
          j.replace E { r with completion := some id } = .ok j') := by
  simp only [complete, checked_ok, require_eq_ok] at h
  obtain ⟨nonzero, history, read, _, r, head, lost, checked, rfl, same, current, committed,
    ⟨digest, all⟩, _, h⟩ := h
  obtain ⟨admits, rfl⟩ := layout.read read
  refine ⟨admits, checked, nonzero, r, head, same, ?_, all, ?_⟩
  · exact digest.symm.trans (committed_tokenDigest committed)
  · cases completion : r.completion with
    | some old =>
      simp only [completion, checked_ok] at h
      obtain ⟨rfl, rfl⟩ := h
      exact .inl ⟨rfl, rfl⟩
    | none =>
      simp only [completion] at h
      obtain ⟨front, split⟩ := trail_open layout.trail head completion
      exact .inr ⟨front, split, rfl, h⟩

end Journal

/-- An abort closes the open decision it names, or takes the next revision. -/
inductive Cancels (a : AbortRecord) : List Event → List Event → Prop
  | decided (front : List Event) (r : Record) :
    Cancels a (front ++ [.decided r]) (front ++ [.cancelled r a])
  | undecided (events : List Event) : Cancels a events (events ++ [.skipped a])

theorem expected_of_next {n : ℕ} {text : String} (positive : 0 < s.initialRevision)
    (h : checkedSucc (p.lastRevision s) text = .ok n) : s.expected p.consumed = .ok n := by
  rw [checkedSucc_eq_ok] at h
  cases consumed : p.consumed with
  | none =>
    simp only [Position.lastRevision, consumed, Option.getD_none] at h
    rw [JournalScope.expected, pure_eq, Except.ok.injEq]
    omega
  | some r =>
    simp only [Position.lastRevision, consumed, Option.getD_some] at h
    rw [JournalScope.expected, checkedSucc_eq_ok]
    exact h

namespace Journal

theorem abortTarget_effect (layout : j.Layout E events p) (positive : 0 < j.scope.initialRevision)
    (h : abortTarget E (p.history j.scope events) a.abort = .ok ()) :
    ∃ front e p', Cancels a events (front ++ [e]) ∧ recordsOf (front ++ [e]) = recordsOf events ∧
      abortsOf (front ++ [e]) = abortsOf events ++ [a] ∧ e.revision = a.abort.abortedRevision ∧
      E.trail j.scope (front ++ [e]) = .ok p' ∧
      max (p.lastRevision j.scope) a.abort.abortedRevision = e.revision ∧
      (∀ row ∈ j.aborts.getD [], row.revision < a.abort.abortedRevision) := by
  simp only [abortTarget] at h
  cases head : ((p.history j.scope events).head.filter fun r =>
      r.request.revision = a.abort.abortedRevision) with
  | some r =>
    simp only [head] at h
    obtain ⟨effective, same⟩ := Option.filter_eq_some_iff.mp head
    have target := h
    simp only [Env.decidedAbort, checked_ok] at h
    obtain ⟨⟨_, unfinished, _, revision, _⟩, _⟩ := h
    obtain ⟨front, rfl⟩ := trail_open layout.trail effective unfinished
    obtain ⟨p', cancelled⟩ := trail_cancel target layout.trail
    obtain ⟨_, _, stepped⟩ := trail_concat.mp layout.trail
    refine ⟨front, .cancelled r a, p', .decided front r, ?_, ?_, revision.symm, cancelled, ?_, ?_⟩
    · rw [recordsOf_append, recordsOf_append]
      rfl
    · rw [abortsOf_append, abortsOf_append, abortsOf_singleton, abortsOf_singleton]
      simp [Event.abort?]
    · rw [Position.lastRevision_step stepped, revision]
      exact max_self _
    · rw [revision]
      have stored := layout.aborts
      rw [abortsOf_append, abortsOf_singleton] at stored
      exact aborts_below (by simpa [Event.abort?] using stored) cancelled
  | none =>
    simp only [head, checked_ok] at h
    obtain ⟨next, succ, ⟨undecided, rfl⟩, settled⟩ := h
    have stepped : ∃ p', p.step E j.scope (.skipped a) = .ok p' := by
      simp only [Position.step, JournalScope.undecidedAbort, checked_ok]
      exact ⟨_, ⟨_, expected_of_next positive succ, ⟨undecided, rfl⟩, settled⟩, rfl⟩
    obtain ⟨p', stepped⟩ := stepped
    have next : E.trail j.scope (events ++ [.skipped a]) = .ok p' :=
      trail_concat.mpr ⟨p, layout.trail, stepped⟩
    refine ⟨events, .skipped a, p', .undecided events, ?_, ?_, rfl, next, ?_, ?_⟩
    · rw [recordsOf_append, recordsOf_singleton]
      simp [Event.record?]
    · rw [abortsOf_append]
      rfl
    · have above : p.lastRevision j.scope + 1 = a.abort.abortedRevision :=
        (checkedSucc_eq_ok.mp succ).2
      exact max_eq_right (by omega)
    · exact aborts_below layout.aborts next

theorem abortNew_effect {abort : MaintenanceAbort} {c : CommittedMaintenanceAbort}
    (layout : j.Layout E events p) (positive : 0 < j.scope.initialRevision)
    (h : j.abortNew E (p.history j.scope events) abort token now trust policy = .ok (j', c)) :
    ∃ certificate marked front e p',
      Cancels ⟨2, abort, token, certificate⟩ events (front ++ [e]) ∧
      E.verifyAbortHistorical token trust abort = .ok certificate ∧
      abortTarget E (p.history j.scope events) abort = .ok () ∧
      (abortsOf events).length < maxAbortRows ∧
      policy.abortApplicable j.scope abort = .ok () ∧
      E.bytes (E.encode (⟨2, abort, token, certificate⟩ : AbortRecord)) ≤ maxRecord ∧
      j.markJournalFormatTwo E = .ok marked ∧
      recordsOf (front ++ [e]) = recordsOf events ∧
      abortsOf (front ++ [e]) = abortsOf events ++ [⟨2, abort, token, certificate⟩] ∧
      c = ⟨abort, token, E.tokenDigest token, certificate⟩ ∧
      j' = { j with
        stored := marked.stored
        aborts := some (j.aborts.getD [] ++
          [E.row abort.abortedRevision ⟨2, abort, token, certificate⟩])
        head := e.revision } ∧
      j'.Layout E (front ++ [e]) p' := by
  simp only [abortNew, checked_ok] at h
  obtain ⟨target, room, applicable, certificate, verified, _, saved, save, committed, fetched,
    rfl, rfl⟩ := h
  obtain ⟨front, e, p', cancels, records, aborts, revision, trail, top, below⟩ :=
    abortTarget_effect (a := ⟨2, abort, token, certificate⟩) layout positive target
  obtain ⟨fits, marked, mark, rfl⟩ := saveAbort_eq_ok below save
  refine ⟨certificate, marked, front, e, p', cancels, Env.verifyDocument_historical verified,
    target, room, applicable, fits, mark, records, aborts, ?_, ?_, ?_⟩
  · simp only [Env.committedAbort, checked_ok] at fetched
    obtain ⟨_, _, rfl, rfl⟩ := fetched
    rfl
  · exact congrArg (fun head => Journal.mk _ _ head _ _ _ _ _ _ _ _) top
  · exact abort_layout layout trail records aborts top

theorem abort_effect {abort : MaintenanceAbort} {c : CommittedMaintenanceAbort}
    (layout : j.Layout E events p) (h : j.abort E abort token now trust policy = .ok (j', c)) :
    j.Admits E trust events ∧ j.lossRecordExists E trust = .ok false ∧ abort.Valid ∧
      j.scope.BindsAbort abort ∧ j.successorParentExists = false ∧
      ((j' = j ∧ ∃ a ∈ abortsOf events, a.abort = abort ∧ a.token = token ∧
          E.committedAbort a trust = .ok c) ∨
        (∀ a ∈ abortsOf events, a.abort.abortedRevision ≠ abort.abortedRevision) ∧
          j.abortNew E (p.history j.scope events) abort token now trust policy = .ok (j', c)) := by
  simp only [Journal.abort, MaintenanceAbort.validate, checked_ok] at h
  obtain ⟨valid, _, history, read, root, lost, checked, rfl, binds, _, h⟩ := h
  obtain ⟨admits, rfl⟩ := layout.read read
  refine ⟨admits, checked, valid, binds, root, ?_⟩
  cases found : (p.history j.scope events).abortAt abort.abortedRevision with
  | some a =>
    simp only [found, checked_ok] at h
    obtain ⟨⟨rfl, rfl⟩, _, committed, fetched, rfl, rfl⟩ := h
    exact .inl ⟨rfl, a, List.mem_of_find?_eq_some found, rfl, rfl, fetched⟩
  | none =>
    simp only [found] at h
    refine .inr ⟨?_, h⟩
    simpa [History.abortAt, Position.history] using found

end Journal

end TerrapiVault.Recovery
