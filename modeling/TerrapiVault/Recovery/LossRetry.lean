import TerrapiVault.Recovery.SuccessorSteps

/-! Exact retry of the effective loss. The retry branch comes after the source of the
loss is checked again and after the maintenance hook is asked again. The first can
not fail on a journal that recorded the loss; the second can. -/
namespace TerrapiVault.Recovery

open Replication (ensure_eq_ok)

variable {T : Type → Type} {E : Env T} {trust other : Trust} {j j' : Journal T}
  {events : List Event} {p : Position} {request : LossRequest} {base : ℕ}

theorem committed_trust {r : Record} {c : CommittedTransition} (admits : j.Admits E trust events)
    (mem : r ∈ recordsOf events) (h : E.committed r other = .ok c) :
    E.committed r trust = .ok c := by
  obtain ⟨row, _, load⟩ := forall₂_mem_right admits.records mem
  obtain ⟨_, _, _, v, verified⟩ := loadRecord_eq_ok.mp load
  simp only [Env.committed, run_ok] at h ⊢
  obtain ⟨v', verified', rfl⟩ := h
  exact ⟨v, verified, by rw [Env.verifyHistorical_unique verified verified']⟩

theorem completed_mem_recordsOf {s : JournalScope} {r : Record} (h : E.trail s events = .ok p)
    (completed : p.completed = some r) : r ∈ recordsOf events := by
  rw [(trail_effective h).2] at completed
  exact liveOf_subset_recordsOf (List.mem_of_mem_filter (List.mem_of_getLast? completed))

variable {record : Option LossSuccessorRecord}

namespace Journal

theorem completedSource_mem {record : Record} {abandoning : Bool} (layout : j.Layout E events p)
    (h : completedSource E (p.history j.scope events) request = .ok (record, abandoning)) :
    record ∈ recordsOf events := by
  simp only [completedSource, run_ok, require_eq_ok] at h
  obtain ⟨head, found, h⟩ := h
  split_ifs at h
  · simp only [run_ok, require_eq_ok] at h
    obtain ⟨_, _, _, _, completed, rfl, _⟩ := h
    exact completed_mem_recordsOf layout.trail completed
  · simp only [run_ok] at h
    exact h.1 ▸ liveOf_subset_recordsOf (effective_mem_liveOf layout.trail found)

theorem lossFromCompleted_trust (layout : j.Layout E events p) (admits : j.Admits E trust events)
    (h : j.lossFromCompleted E (p.history j.scope events) request other = .ok base) :
    j.lossFromCompleted E (p.history j.scope events) request trust = .ok base := by
  simp only [lossFromCompleted, run_ok] at h ⊢
  obtain ⟨⟨record, abandoning⟩, source, committed, fetched, rest⟩ := h
  exact ⟨_, source, committed,
    committed_trust admits (completedSource_mem layout source) fetched, rest⟩

theorem lossFromDecided_trust (layout : j.Layout E events p) (admits : j.Admits E trust events)
    (h : j.lossFromDecided E (p.history j.scope events) request other = .ok base) :
    j.lossFromDecided E (p.history j.scope events) request trust = .ok base := by
  simp only [lossFromDecided, bind_eq_ok, require_eq_ok] at h ⊢
  obtain ⟨head, found, _, unfinished, digest, hashed, _, named, committed, fetched, rest⟩ := h
  exact ⟨head, found, (), unfinished, digest, hashed, (), named, committed, committed_trust admits
    (liveOf_subset_recordsOf (effective_mem_liveOf layout.trail found)) fetched, rest⟩

theorem readParent_trust {parent parent' : Option SuccessorParent}
    (h : j.readParent E other = .ok parent) (h' : j.readParent E trust = .ok parent') :
    parent = parent' := by
  match table : j.parent with
  | none =>
    simp only [readParent, table, pure_inj] at h h'
    exact h.symm.trans h'
  | some none => simp [readParent, table] at h
  | some (some cell) =>
    simp only [readParent, table, run_ok, load_eq_ok] at h h'
    obtain ⟨record, ⟨_, _, decoded⟩, _, _, rfl⟩ := h
    obtain ⟨record', ⟨_, _, decoded'⟩, _, _, rfl⟩ := h'
    exact decoded.symm.trans decoded'

theorem readSuccessor_trust {record' : Option LossSuccessorRecord}
    (h : j.readSuccessor E other = .ok record) (h' : j.readSuccessor E trust = .ok record') :
    record = record' := by
  cases table : j.successor.join with
  | none =>
    simp only [readSuccessor, table, pure_inj] at h h'
    exact h.symm.trans h'
  | some cell =>
    simp only [readSuccessor, table, run_ok, load_eq_ok] at h h'
    obtain ⟨record, ⟨_, _, decoded⟩, _, _, _, _, rfl⟩ := h
    obtain ⟨record', ⟨_, _, decoded'⟩, _, _, _, _, rfl⟩ := h'
    exact decoded.symm.trans decoded'

theorem lossFromSuccessor_trust (admits : j.Admits E trust events)
    (known : j.readSuccessor E trust = .ok record)
    (h : j.lossFromSuccessor E (p.history j.scope events) request other = .ok base) :
    j.lossFromSuccessor E (p.history j.scope events) request trust = .ok base := by
  simp only [lossFromSuccessor, bind_eq_ok, requireParent_eq_ok, requireSuccessor_eq_ok,
    ensureSuccessorNotAborted_eq_ok] at h ⊢
  obtain ⟨_, none, parent, founded, successor, decided, rest⟩ := h
  have founded' : j.readParent E trust = .ok (some parent) := by
    have checked := admits.parent
    simp only [validateSuccessorParent, bind_eq_ok] at checked
    obtain ⟨found, read, _⟩ := checked
    rw [readParent_trust founded read]
    exact read
  rw [← readSuccessor_trust decided known] at known
  exact ⟨(), none, parent, founded', successor, known, rest⟩

/-- A loss source that one trust store accepted passes under every other that reads
the journal. -/
theorem lossBase_trust (layout : j.Layout E events p) (admits : j.Admits E trust events)
    (known : j.readSuccessor E trust = .ok record)
    (h : j.lossBase E (p.history j.scope events) request other = .ok base) :
    j.lossBase E (p.history j.scope events) request trust = .ok base := by
  cases kind : request.kind with
  | completed =>
    simp only [lossBase, kind] at h ⊢
    exact lossFromCompleted_trust layout admits h
  | decided =>
    simp only [lossBase, kind] at h ⊢
    exact lossFromDecided_trust layout admits h
  | lossSuccessor =>
    simp only [lossBase, kind] at h ⊢
    exact lossFromSuccessor_trust admits known h

/-- Some reader accepts the source of the loss as the journal stands. -/
def Grounded (E : Env T) (j : Journal T) (request : LossRequest) : Prop :=
  ∃ trust history base, j.read E trust = .ok history ∧
    j.lossBase E history request trust = .ok base

theorem Grounded.lossBase {history : History} (grounded : j.Grounded E request)
    (read : j.read E trust = .ok history) (known : j.readSuccessor E trust = .ok record) :
    ∃ base, j.lossBase E history request trust = .ok base := by
  obtain ⟨other, history', base, read', based⟩ := grounded
  obtain ⟨events, p, _, layout, rfl⟩ := read_eq_ok.mp read'
  obtain ⟨admits, rfl⟩ := layout.read read
  exact ⟨base, lossBase_trust layout admits known based⟩

/-- The reader does not look at the loss tables. -/
theorem Grounded.recorded {stored : T StoredScope} {loss : Option (Option (Cell T LossRecord))}
    {table : Option (List (Row T LossRecord))} {head : Option (Option (ℕ × ℕ))}
    (grounded : j.Grounded E request)
    (format : ensureJournalFormat E { j with
      stored := stored, loss := loss, lossChain := table, lossHead := head } = .ok ()) :
    Grounded E { j with stored := stored, loss := loss, lossChain := table, lossHead := head }
      request := by
  obtain ⟨trust, history, base, read, based⟩ := grounded
  obtain ⟨events, p, admits, layout, rfl⟩ := read_eq_ok.mp read
  refine ⟨trust, p.history j.scope events, base, read_eq_ok.mpr ⟨events, p, ?_, ?_, rfl⟩, ?_⟩
  · exact { admits with format := format }
  · exact { layout with }
  · exact based

/-- Either nothing is recorded of a loss, or the effective one is grounded. -/
def LossGrounded (E : Env T) (j : Journal T) : Prop :=
  (j.loss.join = none ∧ j.lossChain.getD [] = []) ∨
    (∃ cell, j.loss = some (some cell)) ∧ ∀ trust chain old,
      j.readLossHistory E trust = .ok chain → chain.getLast? = some old →
        j.Grounded E old.request

theorem decodeLossRow_own {r r' : LossRecord}
    (h : E.decodeLossRow (E.encode r) (E.digest r) trust = .ok r') : r' = r := by
  have decoded := (decodeLossRow_eq_ok.mp h).1.2.2
  rw [E.decode_encode] at decoded
  exact (Option.some.inj decoded).symm

theorem first_grounded {token : String} {certificate : Id}
    (empty : j.lossChain.getD [] = []) (grounded : j.Grounded E request)
    (format : j.ensureJournalFormat E = .ok ())
    (saved : j.saveRecord E ⟨request, token, certificate⟩ = .ok j') : j'.LossGrounded E := by
  obtain ⟨fits, _, same⟩ := saveRecord_eq_ok saved
  have loss' : j'.loss = some (some (E.cell ⟨request, token, certificate⟩)) := by rw [same]
  refine .inr ⟨⟨_, loss'⟩, fun trust chain old read last => ?_⟩
  obtain ⟨first, rest, reads, rfl⟩ := (readLossHistory_some loss').mp read
  obtain rfl : rest = [] := by
    have followed := reads.followed
    have table : j'.lossChain.getD [] = [] := by rw [same]; exact empty
    rw [table] at followed
    exact (Except.ok.inj followed).symm
  obtain rfl : first = old := Option.some.inj last
  rw [decodeLossRow_own reads.decoded, same]
  exact grounded.recorded format

theorem superseding_grounded {token : String} {certificate : Id} {prev : LossRecord}
    {chain : List LossRecord} (read : j.readLossHistory E trust = .ok chain)
    (last : chain.getLast? = some prev) (next : request.revision = prev.request.revision + 1)
    (grounded : j.Grounded E request) (format : j.ensureJournalFormat E = .ok ())
    (saved : j.saveChainRecord E ⟨request, token, certificate⟩ = .ok j') :
    j'.LossGrounded E := by
  obtain ⟨_, rfl⟩ | ⟨cell, first, rest, loss, reads, rfl⟩ := readLossHistory_cases read
  · cases last
  obtain ⟨fits, marked, mark, same⟩ := saveChainRecord_eq_ok (next ▸ reads.below last) saved
  have loss' : j'.loss = some (some cell) := by rw [same]; exact loss
  refine .inr ⟨⟨_, loss'⟩, fun trust' chain' old read' last' => ?_⟩
  obtain ⟨first', rest', reads', rfl⟩ := (readLossHistory_some loss').mp read'
  have followed := reads'.followed
  rw [same, Option.getD_some] at followed
  obtain ⟨front, record, _, follows, rfl⟩ := followChain_concat.mp followed
  obtain rfl : record = old := by simpa [List.getLast?_cons] using last'
  rw [decodeLossRow_own follows.decoded, same]
  exact grounded.recorded (ensureJournalFormat_marked format mark rfl rfl)

theorem decideLoss_grounded {token : String} {now : ℕ} {policy : LossPolicy} {c : CommittedLoss}
    (grounded : j.LossGrounded E)
    (h : j.decideLoss E request token now trust policy = .ok (j', c)) : j'.LossGrounded E := by
  obtain ⟨_, history, base, chain, journal, based, _, read, ⟨_, _, _, _, rfl, _⟩ | ⟨_, new⟩⟩ :=
    decideLoss_eq_ok h
  · exact grounded
  have own : j.Grounded E request := ⟨trust, history, base, journal, based⟩
  obtain ⟨events, p, admits, _⟩ := read_eq_ok.mp journal
  obtain ⟨expected, certificate, found, next, _, _, _, saved, _⟩ := decideLossNew_eq_ok new
  obtain ⟨root, none, _⟩ | ⟨s, prev, _, supersedes, last, _, _, _, rfl⟩ := lossExpected_eq_ok found
  · rw [saveLoss, root] at saved
    have empty : j.lossChain.getD [] = [] := by
      rcases grounded with ⟨_, empty⟩ | ⟨⟨cell, recorded⟩, _⟩
      · exact empty
      · have unrecorded := (saveRecord_eq_ok saved).2.1
        rw [recorded] at unrecorded
        cases unrecorded
    exact first_grounded empty own admits.format saved
  · rw [saveLoss, supersedes] at saved
    exact superseding_grounded read last next own admits.format saved

end Journal

theorem Journal.LossGrounded.run {c : Call} (positive : 0 < j.scope.initialRevision)
    (grounded : j.LossGrounded E) (h : c.run E trust j = .ok j') : j'.LossGrounded E := by
  obtain ⟨request, token, now, policy, _, rfl, decided⟩ | ⟨loss, table, _, _, _, none, _⟩ :=
    c.run_cases positive h
  · exact decideLoss_grounded grounded decided
  · rcases grounded with ⟨_, empty⟩ | ⟨⟨cell, recorded⟩, _⟩
    · exact .inl ⟨loss ▸ none, table ▸ empty⟩
    · simp [recorded] at none

theorem run_grounded {start : Journal T} (valid : start.scope.validate = .ok ())
    (clean : start.loss.join = none ∧ start.lossChain.getD [] = [])
    (run : Relation.ReflTransGen (fun a b => ∃ (trust : Trust) (c : Call),
      c.run E trust a = .ok b) start j) : j.scope.validate = .ok () ∧ j.LossGrounded E := by
  induction run with
  | refl => exact ⟨valid, .inl clean⟩
  | tail _ step ih =>
    obtain ⟨trust, c, ran⟩ := step
    have positive := JournalScope.validate_positive ih.1
    exact ⟨(c.run_scope positive ran).1 ▸ ih.1, ih.2.run positive ran⟩

/-- The retry of the effective loss succeeds and changes nothing exactly if the hook of
its kind still allows the maintenance it abandons. -/
theorem loss_retry {start : Journal T} {history : History} {old : LossRecord}
    {record : Option LossSuccessorRecord} {now : ℕ} {policy : LossPolicy}
    (valid : start.scope.validate = .ok ())
    (clean : start.loss.join = none ∧ start.lossChain.getD [] = [])
    (run : Relation.ReflTransGen (fun a b => ∃ (trust : Trust) (c : Call),
      c.run E trust a = .ok b) start j)
    (read : j.read E trust = .ok history) (successor : j.readSuccessor E trust = .ok record)
    (effective : j.readRecord E trust = .ok (some old))
    (continuity : ∀ ask, policy.continuityAndFencing ask j.scope old.request = .ok ()) :
    j.decideLoss E old.request old.token now trust policy =
        .ok (j, ⟨old.request, old.token, old.certificateId, E.tokenDigest old.token⟩) ↔
      policy.maintenanceAuthorized j.scope old.request = .ok () := by
  constructor
  · intro decided
    obtain ⟨_, _, _, _, _, _, authorized, _⟩ := Journal.decideLoss_eq_ok decided
    exact authorized
  · intro authorized
    simp only [Journal.readRecord, run_ok] at effective
    obtain ⟨chain, chained, last⟩ := effective
    have verified := Journal.readLossHistory_verified chained old (List.mem_of_getLast? last)
    obtain ⟨_, opened, _, _, wellFormed, _⟩ := Env.verifyDocument_eq_ok verified
    have wellFormed : old.request.validate = .ok () := wellFormed
    simp only [Env.openToken, checked_ok] at opened
    obtain ⟨_, _, limit, _⟩ := opened
    obtain ⟨base, based⟩ : ∃ base, j.lossBase E history old.request trust = .ok base := by
      obtain ⟨none, _⟩ | ⟨_, grounded⟩ := (run_grounded valid clean run).2
      · rw [Journal.readLossHistory_none none chained] at last
        cases last
      · exact (grounded trust chain old chained last).lossBase read successor
    have found : (chain.getLast?.filter fun r => r.request = old.request) = some old := by
      simp [last, Option.filter]
    have committed : E.committedLoss old trust =
        .ok ⟨old.request, old.token, old.certificateId, E.tokenDigest old.token⟩ := by
      simp only [Env.committedLoss, verified, ok_bind, pure_eq]
    simp only [Journal.decideLoss, checked_ok]
    refine ⟨wellFormed, limit, history, read, base, based, authorized, chain, chained, ?_⟩
    simp only [found, checked_ok]
    exact ⟨trivial, continuity 0, _, committed, trivial, rfl⟩

namespace Sample

/-- The hooks that are not asked for continuity now refuse. -/
def revoked : LossPolicy :=
  { lossPolicy with maintenanceRollbackAuthorized := fun _ _ _ => .error (.message "revoked") }

theorem lost_effective : lost.readRecord env trusted = .ok (some (lossRecord 2)) := by
  decide +kernel

/-- Long after the token expired. -/
theorem loss_retry_expired :
    lost.decideLoss env (lossRecord 2).request (lossRecord 2).token 1000 trusted lossPolicy =
        .ok (lost, ⟨(lossRecord 2).request, (lossRecord 2).token, (lossRecord 2).certificateId,
          env.tokenDigest (lossRecord 2).token⟩) ↔
      lossPolicy.maintenanceAuthorized lost.scope (lossRecord 2).request = .ok () := by
  obtain ⟨history, read, _⟩ := lost_chained.journal
  have successor : lost.readSuccessor env trusted = .ok none := by decide +kernel
  refine loss_retry scope_valid ⟨rfl, rfl⟩ (completed_steps.tail lost_step) read successor
    lost_effective fun ask => ?_
  simp only [lossPolicy]

theorem loss_retry_revoked : Relation.ReflTransGen Steps created lost ∧
    lost.readRecord env trusted = .ok (some (lossRecord 2)) ∧
    (∀ ask, revoked.continuityAndFencing ask lost.scope (loss 2) = .ok ()) ∧
    (lost.decideLoss env (loss 2) (token .loss 2) 0 trusted revoked).toOption.isNone :=
  ⟨completed_steps.tail lost_step, lost_effective, fun _ => rfl, by decide +kernel⟩

end Sample

end TerrapiVault.Recovery
