import TerrapiVault.Recovery.JournalRuns

/-! What `decide_loss` does: nothing for the effective loss again, a first loss row, or
one more row of the superseding chain. -/
namespace TerrapiVault.Recovery

open Replication (ensure_eq_ok)

variable {T : Type → Type} {E : Env T} {trust : Trust} {j j' : Journal T}

/-- A chain row and the record it replaces. -/
structure Follows (E : Env T) (trust : Trust) (previous : LossRecord) (row : Row T LossRecord)
    (record : LossRecord) : Prop where
  decoded : E.decodeLossRow row.record row.digest trust = .ok record
  filed : row.revision = record.request.revision
  names : ∃ s, record.request.supersedes = some s ∧ s.lossCertificate = previous.certificateId ∧
    s.lossTokenDigest = E.tokenDigest previous.token
  bounded : previous.request.revision + 1 < 2 ^ 64
  next : record.request.revision = previous.request.revision + 1

variable {previous : LossRecord} {rows : List (Row T LossRecord)} {chain rest : List LossRecord}
  {request : LossRequest} {policy : LossPolicy} {token : String} {now : ℕ} {c : CommittedLoss}

theorem followChain_cons_eq_ok {row : Row T LossRecord} :
    E.followChain trust previous (row :: rows) = .ok chain ↔ ∃ record rest,
      Follows E trust previous row record ∧ E.followChain trust record rows = .ok rest ∧
        chain = record :: rest := by
  simp only [Env.followChain, checked_ok, require_eq_ok, checkedSucc_eq_ok]
  constructor
  · rintro ⟨record, decoded, filed, s, names, _, ⟨bounded, rfl⟩, ⟨certificate, digest, next⟩,
      rest, followed, rfl⟩
    exact ⟨record, rest, ⟨decoded, filed, ⟨s, names, certificate, digest⟩, bounded, next⟩,
      followed, rfl⟩
  · rintro ⟨record, rest, ⟨decoded, filed, ⟨s, names, certificate, digest⟩, bounded, next⟩,
      followed, rfl⟩
    exact ⟨record, decoded, filed, s, names, _, ⟨bounded, rfl⟩,
      ⟨certificate, digest, next⟩, rest, followed, rfl⟩

theorem followChain_concat {row : Row T LossRecord} :
    E.followChain trust previous (rows ++ [row]) = .ok chain ↔ ∃ rest record,
      E.followChain trust previous rows = .ok rest ∧
        Follows E trust (rest.getLastD previous) row record ∧ chain = rest ++ [record] := by
  induction rows generalizing previous chain with
  | nil =>
    rw [List.nil_append, followChain_cons_eq_ok]
    simp only [Env.followChain, pure_inj]
    constructor
    · rintro ⟨record, _, follows, rfl, rfl⟩
      exact ⟨[], record, rfl, follows, rfl⟩
    · rintro ⟨_, record, rfl, follows, rfl⟩
      exact ⟨record, [], follows, rfl, rfl⟩
  | cons first rows ih =>
    rw [List.cons_append, followChain_cons_eq_ok]
    constructor
    · rintro ⟨record, rest, follows, followed, rfl⟩
      obtain ⟨front, last, before, after, rfl⟩ := ih.mp followed
      refine ⟨record :: front, last, ?_, ?_, rfl⟩
      · exact followChain_cons_eq_ok.mpr ⟨record, front, follows, before, rfl⟩
      · rw [List.getLastD_cons]
        exact after
    · rintro ⟨front, last, before, after, rfl⟩
      obtain ⟨record, rest, follows, followed, rfl⟩ := followChain_cons_eq_ok.mp before
      rw [List.getLastD_cons] at after
      exact ⟨record, _, follows, ih.mpr ⟨rest, last, followed, after, rfl⟩, rfl⟩

theorem followChain_revisions (h : E.followChain trust previous rows = .ok chain) :
    chain.length = rows.length ∧
      (chain.getLastD previous).request.revision = previous.request.revision + rows.length ∧
      ∀ row ∈ rows, row.revision ≤ previous.request.revision + rows.length := by
  induction rows generalizing previous chain with
  | nil =>
    obtain rfl := Except.ok.inj h
    simp
  | cons row rows ih =>
    obtain ⟨record, rest, follows, followed, rfl⟩ := followChain_cons_eq_ok.mp h
    obtain ⟨length, last, bound⟩ := ih followed
    have next := follows.next
    refine ⟨by simp [length], ?_, ?_⟩
    · rw [List.getLastD_cons, last, List.length_cons]
      omega
    · rw [List.forall_mem_cons, List.length_cons]
      refine ⟨by rw [follows.filed]; omega, fun r mem => ?_⟩
      have := bound r mem
      omega

theorem checkChainHead_nonempty {head : Option (ℕ × ℕ)}
    (followed : E.followChain trust previous rows = .ok rest)
    (checked : checkChainHead head (previous :: rest) = .ok ()) : rows = [] ∨ head ≠ none := by
  cases head with
  | some head => exact .inr (Option.some_ne_none head)
  | none =>
    rw [checkChainHead, ensure_eq_ok, List.length_cons] at checked
    have length := (followChain_revisions followed).1
    exact .inl (List.eq_nil_of_length_eq_zero (by omega))

namespace Journal

/-- The chain a recorded loss reads as. -/
structure ChainReads (E : Env T) (j : Journal T) (trust : Trust) (cell : Cell T LossRecord)
    (first : LossRecord) (rest : List LossRecord) : Prop where
  decoded : E.decodeLossRow cell.record cell.digest trust = .ok first
  root : first.request.supersedes = none
  count : (j.lossChain.getD []).length ≤ maxChainRows
  length : ∀ row ∈ j.lossChain.getD [], E.characters row.record ≤ maxRecord
  followed : E.followChain trust first (j.lossChain.getD []) = .ok rest
  head : checkChainHead j.readChainHead (first :: rest) = .ok ()
  absent : j.lossChain = none → j.readChainHead = none

theorem readLossHistory_some {cell : Cell T LossRecord} (loss : j.loss = some (some cell)) :
    j.readLossHistory E trust = .ok chain ↔
      ∃ first rest, j.ChainReads E trust cell first rest ∧ chain = first :: rest := by
  cases table : j.lossChain with
  | none =>
    simp only [readLossHistory, loss, table, checked_ok]
    constructor
    · rintro ⟨first, decoded, root, none, rfl⟩
      refine ⟨first, [], ⟨decoded, root, ?_, ?_, ?_, ?_, fun _ => none⟩, rfl⟩
      · simp [table]
      · simp [table]
      · rw [table]
        rfl
      · rw [none]
        rfl
    · rintro ⟨first, rest, reads, rfl⟩
      obtain rfl : rest = [] := by
        have followed := reads.followed
        rw [table] at followed
        exact (Except.ok.inj followed).symm
      exact ⟨first, reads.decoded, reads.root, reads.absent table, rfl⟩
  | some rows =>
    simp only [readLossHistory, loss, table, checked_ok]
    constructor
    · rintro ⟨first, decoded, root, count, length, _, rest, followed, head, rfl⟩
      refine ⟨first, rest, ⟨decoded, root, ?_, ?_, ?_, head, ?_⟩, rfl⟩
      · simpa [table] using count
      · simpa [table] using length
      · simpa [table] using followed
      · simp [table]
    · rintro ⟨first, rest, reads, rfl⟩
      obtain ⟨decoded, root, count, length, followed, head, _⟩ := reads
      simp only [table, Option.getD_some] at count length followed
      exact ⟨first, decoded, root, count, length,
        checkChainHead_nonempty followed head, rest, followed, head, rfl⟩

theorem getLast?_chain {first prev : LossRecord} (last : (first :: rest).getLast? = some prev) :
    rest.getLastD first = prev := by
  rw [List.getLast?_cons] at last
  rw [List.getLastD_eq_getLast?]
  exact Option.some.inj last

theorem ChainReads.below {cell : Cell T LossRecord} {first prev : LossRecord}
    (reads : j.ChainReads E trust cell first rest) (last : (first :: rest).getLast? = some prev) :
    ∀ row ∈ j.lossChain.getD [], row.revision < prev.request.revision + 1 := by
  obtain ⟨_, top, bound⟩ := followChain_revisions reads.followed
  intro row mem
  have := bound row mem
  rw [getLast?_chain last] at top
  omega

theorem readLossHistory_none (loss : j.loss.join = none)
    (h : j.readLossHistory E trust = .ok chain) : chain = [] := by
  cases table : j.loss with
  | none =>
    simp only [readLossHistory, table, run_ok] at h
    obtain ⟨_, rfl⟩ := h
    rfl
  | some row =>
    obtain rfl : row = none := by simpa [table] using loss
    simp only [readLossHistory, table, pure_inj] at h
    exact h.symm

theorem readLossHistory_cases (h : j.readLossHistory E trust = .ok chain) :
    (j.loss.join = none ∧ chain = []) ∨ ∃ cell first rest, j.loss = some (some cell) ∧
      j.ChainReads E trust cell first rest ∧ chain = first :: rest := by
  cases table : j.loss.join with
  | none => exact .inl ⟨rfl, readLossHistory_none table h⟩
  | some cell =>
    have loss : j.loss = some (some cell) := Option.join_eq_some_iff.mp table
    obtain ⟨first, rest, reads, same⟩ := (readLossHistory_some loss).mp h
    exact .inr ⟨cell, first, rest, loss, reads, same⟩

theorem lossExpected_eq_ok {base expected : ℕ}
    (h : j.lossExpected E base chain request trust policy = .ok expected) :
    (request.supersedes = none ∧ chain = [] ∧ expected = base) ∨
      ∃ s prev parent, request.supersedes = some s ∧ chain.getLast? = some prev ∧
        j.readParent E trust = .ok parent ∧
        E.supersedesPrevious s prev request chain
          ((parent.map SuccessorParent.retired).getD Retired.empty) = .ok () ∧
        policy.supersededSuccessorAborted j.scope prev.request s = .ok () ∧
        expected = prev.request.revision := by
  cases supersedes : request.supersedes with
  | none =>
    cases last : chain.getLast? with
    | none =>
      simp only [lossExpected, supersedes, last, pure_inj] at h
      exact .inl ⟨rfl, List.getLast?_eq_none_iff.mp last, h.symm⟩
    | some prev => simp [lossExpected, supersedes, last] at h
  | some s =>
    cases last : chain.getLast? with
    | none => simp [lossExpected, supersedes, last] at h
    | some prev =>
      simp only [lossExpected, supersedes, last, run_ok] at h
      obtain ⟨parent, read, superseded, aborted, rfl⟩ := h
      exact .inr ⟨s, prev, parent, rfl, rfl, read, superseded, aborted, rfl⟩

theorem decideLossNew_eq_ok {base : ℕ}
    (h : j.decideLossNew E base chain request token now trust policy = .ok (j', c)) :
    ∃ expected certificate, j.lossExpected E base chain request trust policy = .ok expected ∧
      request.revision = expected + 1 ∧ expected + 1 < 2 ^ 64 ∧
      E.verifyLossIssuance token trust request now = .ok certificate ∧
      policy.survivorPrepared j.scope request = .ok () ∧
      j.saveLoss E ⟨request, token, certificate⟩ = .ok j' ∧
      c = ⟨request, token, certificate, E.tokenDigest token⟩ := by
  simp only [decideLossNew, checked_ok, checkedSucc_eq_ok] at h
  obtain ⟨expected, found, _, ⟨bounded, rfl⟩, revision, certificate, verified, _, prepared, _,
    saved, save, committed, fetched, rfl, rfl⟩ := h
  refine ⟨expected, certificate, found, revision, bounded, verified, prepared, save, ?_⟩
  simp only [Env.committedLoss, run_ok] at fetched
  obtain ⟨id, historical, rfl⟩ := fetched
  rw [Env.verifyDocument_unique historical verified]

variable (h : j.decideLoss E request token now trust policy = .ok (j', c))
include h

theorem decideLoss_eq_ok :
    request.Valid ∧ ∃ history base chain, j.read E trust = .ok history ∧
      j.lossBase E history request trust = .ok base ∧
      policy.maintenanceAuthorized j.scope request = .ok () ∧
      j.readLossHistory E trust = .ok chain ∧
      ((∃ old, chain.getLast? = some old ∧ old.request = request ∧ old.token = token ∧ j' = j ∧
          E.committedLoss old trust = .ok c) ∨
        (∀ old, chain.getLast? = some old → old.request ≠ request) ∧
          j.decideLossNew E base chain request token now trust policy = .ok (j', c)) := by
  simp only [decideLoss, LossRequest.validate, checked_ok] at h
  obtain ⟨valid, _, history, read, base, based, authorized, chain, chained, h⟩ := h
  refine ⟨valid, history, base, chain, read, based, authorized, chained, ?_⟩
  cases found : (chain.getLast?.filter fun old => old.request = request) with
  | some old =>
    simp only [found, checked_ok] at h
    obtain ⟨sameToken, _, committed, fetched, rfl, rfl⟩ := h
    obtain ⟨last, same⟩ := Option.filter_eq_some_iff.mp found
    exact .inl ⟨old, last, of_decide_eq_true same, sameToken, rfl, fetched⟩
  | none =>
    simp only [found] at h
    refine .inr ⟨fun old last same => ?_, h⟩
    have rejected := Option.filter_eq_none_iff.mp found old last
    exact rejected (decide_eq_true same)

omit h in
theorem saveRecord_eq_ok {r : LossRecord} (h : j.saveRecord E r = .ok j') :
    E.bytes (E.encode r) ≤ maxRecord ∧ j.loss.join = none ∧
      j' = { j with loss := some (some (E.cell r)) } := by
  simp only [saveRecord, insertCell, checked_ok] at h
  obtain ⟨fits, loss, inserted, rfl⟩ := h
  split_ifs at inserted with taken
  obtain rfl := Except.ok.inj inserted
  exact ⟨fits, by simpa using taken, rfl⟩

omit h in
theorem saveChainRecord_eq_ok {r : LossRecord}
    (below : ∀ row ∈ j.lossChain.getD [], row.revision < r.request.revision)
    (h : j.saveChainRecord E r = .ok j') :
    E.bytes (E.encode r) ≤ maxRecord ∧ ∃ marked, j.markJournalFormatTwo E = .ok marked ∧
      j' = { j with
        stored := marked.stored
        lossChain := some (j.lossChain.getD [] ++ [E.row r.request.revision r])
        lossHead := some (some (r.request.revision, (j.lossChain.getD []).length + 1)) } := by
  have inserted := insertRow_last (E.row r.request.revision r) below
  simp only [saveChainRecord, checked_ok, inserted, exists_eq_left'] at h
  obtain ⟨fits, marked, mark, rfl⟩ := h
  obtain ⟨text, rfl, _⟩ := markJournalFormatTwo_eq_ok mark
  refine ⟨fits, _, mark, ?_⟩
  simp

/-- The three outcomes of an accepted loss, with the journal each leaves. -/
theorem decideLoss_effect :
    request.Valid ∧ ∃ history base chain, j.read E trust = .ok history ∧
      j.lossBase E history request trust = .ok base ∧ j.readLossHistory E trust = .ok chain ∧
      ((∃ old, chain.getLast? = some old ∧ old.request = request ∧ j' = j) ∨
      (∃ certificate, request.supersedes = none ∧ chain = [] ∧ j.loss.join = none ∧
        j' = { j with loss := some (some (E.cell ⟨request, token, certificate⟩)) }) ∨
      ∃ s prev parent certificate marked, request.supersedes = some s ∧
        chain.getLast? = some prev ∧ request.revision = prev.request.revision + 1 ∧
        j.readParent E trust = .ok parent ∧
        E.supersedesPrevious s prev request chain
          ((parent.map SuccessorParent.retired).getD Retired.empty) = .ok () ∧
        policy.supersededSuccessorAborted j.scope prev.request s = .ok () ∧
        j.markJournalFormatTwo E = .ok marked ∧
        j' = { j with
          stored := marked.stored
          lossChain := some (j.lossChain.getD [] ++
            [E.row request.revision ⟨request, token, certificate⟩])
          lossHead := some (some (request.revision, (j.lossChain.getD []).length + 1)) }) := by
  obtain ⟨valid, history, base, chain, journal, based, _, read, outcome⟩ := decideLoss_eq_ok h
  refine ⟨valid, history, base, chain, journal, based, read, ?_⟩
  obtain ⟨old, last, same, _, rfl, _⟩ | ⟨_, new⟩ := outcome
  · exact .inl ⟨old, last, same, rfl⟩
  obtain ⟨_, certificate, found, next, _, _, _, saved, _⟩ := decideLossNew_eq_ok new
  obtain ⟨root, none, _⟩ | ⟨s, prev, parent, supersedes, last, founded, binds, aborted, rfl⟩ :=
    lossExpected_eq_ok found
  · rw [saveLoss, root] at saved
    obtain ⟨_, unrecorded, written⟩ := saveRecord_eq_ok saved
    exact .inr (.inl ⟨certificate, root, none, unrecorded, written⟩)
  · rw [saveLoss, supersedes] at saved
    have below : ∀ row ∈ j.lossChain.getD [], row.revision < request.revision := by
      obtain ⟨_, rfl⟩ | ⟨cell, first, rest, _, reads, rfl⟩ := readLossHistory_cases read
      · cases last
      · exact next ▸ reads.below last
    obtain ⟨_, marked, mark, written⟩ := saveChainRecord_eq_ok below saved
    exact .inr (.inr ⟨s, prev, parent, certificate, marked, supersedes, last, next, founded, binds,
      aborted, mark, written⟩)

theorem decideLoss_frame :
    ∃ stored loss table head,
      j' = { j with stored := stored, loss := loss, lossChain := table, lossHead := head } := by
  obtain ⟨_, _, _, _, _, _, _, ⟨_, _, _, rfl⟩ | ⟨_, _, _, _, rfl⟩ |
    ⟨_, _, _, _, _, _, _, _, _, _, _, _, rfl⟩⟩ := decideLoss_effect h
  all_goals exact ⟨_, _, _, _, rfl⟩

end Journal

end TerrapiVault.Recovery
