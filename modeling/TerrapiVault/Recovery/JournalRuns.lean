import TerrapiVault.Recovery.LedgerSteps
import TerrapiVault.Recovery.Sample
import Mathlib.Data.List.Pairwise
import Mathlib.Logic.Relation

/-! Runs of one journal. Every call that writes leaves a journal that the reader
accepts again, save an abort whose identifiers an earlier abort already carries. -/
namespace TerrapiVault.Recovery

open Replication (Result ensure_eq_ok)

variable {T : Type → Type}

/-- The calls that change the ordinary history, with their arguments. -/
inductive JournalCall where
  | decide (request : Request) (token : String) (now : ℕ) (policy : Policy)
  | acknowledge (decision : CommittedTransition) (member : Participant) (policy : Policy)
  | complete (decision : CommittedTransition) (id : Id) (policy : Policy)
  | abort (abort : MaintenanceAbort) (token : String) (now : ℕ) (policy : Policy)

namespace Journal

variable (E : Env T) (j : Journal T)

/-- The stored records, decoded and not checked. -/
def records : List Record := j.history.filterMap fun row => E.decode row.record

def abortRecords : List AbortRecord := (j.aborts.getD []).filterMap fun row => E.decode row.record

end Journal

namespace JournalCall

variable (E : Env T) (trust : Trust) (j : Journal T)

def run : JournalCall → Result (Journal T)
  | .decide request token now policy => do
    let (next, _) ← j.decide E request token now trust policy
    pure next
  | .acknowledge decision member policy => j.acknowledge E decision member trust policy
  | .complete decision id policy => j.complete E decision id trust policy
  | .abort cancellation token now policy => do
    let (next, _) ← j.abort E cancellation token now trust policy
    pure next

/-- A first abort of a revision shares no identifier with a recorded abort. -/
def Fresh : JournalCall → Prop
  | .abort cancellation _ _ _ => ∀ a ∈ j.abortRecords E,
      a.abort.abortedRevision ≠ cancellation.abortedRevision →
      a.abort.id ≠ cancellation.id ∧ a.abort.abortedRequestId ≠ cancellation.abortedRequestId
  | _ => True

end JournalCall

variable {E : Env T} {trust : Trust} {events events' front : List Event} {e : Event}
  {p p' : Position} {j j' : Journal T}

theorem holds_decoded {α : Type} {key : α → ℕ} {rows : List (Row T α)} {values : List α}
    (h : List.Forall₂ (Row.Holds E key) rows values) :
    rows.filterMap (fun row => E.decode row.record) = values := by
  induction h with
  | nil => rfl
  | cons holds _ ih => simp [holds.1, ih]

namespace Journal

theorem Layout.records_eq (layout : j.Layout E events p) : j.records E = recordsOf events :=
  holds_decoded layout.history

theorem Layout.abortRecords_eq (layout : j.Layout E events p) :
    j.abortRecords E = abortsOf events :=
  holds_decoded layout.aborts

theorem loadRecord_row {r : Record} (fits : E.bytes (E.encode r) ≤ maxRecord)
    (completion : ∀ id ∈ r.completion, id ≠ zeroId ∧ r.acknowledgements = both true)
    {v : Verified} (verified : E.verifyHistorical r.token trust r.request = .ok v) :
    E.loadRecord trust (E.row r.request.revision r) = .ok r :=
  loadRecord_eq_ok.mpr ⟨⟨fits, rfl, E.decode_encode r⟩, completion, rfl, v, verified⟩

/-- A change of the history alone keeps what the reader checks beside the replay. -/
theorem Admits.rewrite {rows : List (Row T Record)} {head : ℕ} (admits : j.Admits E trust events)
    (records : List.Forall₂ (fun row r => E.loadRecord trust row = .ok r) rows (recordsOf events'))
    (aborts : abortsOf events' = abortsOf events) :
    Admits E { j with history := rows, head := head } trust events' := { admits with
  records := records
  aborts := aborts ▸ admits.aborts
  distinct := aborts ▸ admits.distinct }

theorem ensureJournalFormat_eq_ok : j.ensureJournalFormat E = .ok () ↔
    E.bytes j.stored ≤ maxScope ∧ ∃ v, E.decode j.stored = some v ∧ v.scope = j.scope ∧
      (v.marker = some journalFormatTwo ∨ v.marker = none ∧ j.formatTwoState = false) := by
  simp only [ensureJournalFormat, readScope, Env.parse, checked_ok, require_eq_ok]
  constructor
  · rintro ⟨⟨scope, format⟩, ⟨fits, v, decoded, found⟩, same, state⟩
    refine ⟨fits, v, decoded, ?_⟩
    cases marker : v.marker with
    | none =>
      simp only [marker, run_ok] at found
      obtain ⟨rfl, rfl⟩ := found
      exact ⟨same, .inr ⟨rfl, state.resolve_left (by simp [journalFormatTwo])⟩⟩
    | some m =>
      simp only [marker, checked_ok] at found
      obtain ⟨rfl, rfl, rfl⟩ := found
      exact ⟨same, .inl rfl⟩
  · rintro ⟨fits, v, decoded, same, marker | ⟨marker, state⟩⟩
    · refine ⟨(v.scope, journalFormatTwo), ⟨fits, v, decoded, ?_⟩, same, .inl rfl⟩
      simp [marker]
    · refine ⟨(v.scope, 1), ⟨fits, v, decoded, ?_⟩, same, .inr state⟩
      simp [marker]

/-- Once marked, the format passes whatever the tables hold. -/
theorem ensureJournalFormat_marked {marked other : Journal T}
    (format : j.ensureJournalFormat E = .ok ()) (mark : j.markJournalFormatTwo E = .ok marked)
    (stored : other.stored = marked.stored) (scope : other.scope = j.scope) :
    other.ensureJournalFormat E = .ok () := by
  obtain ⟨text, rfl, value, decoded, fits, kept⟩ := markJournalFormatTwo_eq_ok mark
  obtain ⟨_, v, decoded', same, marker⟩ := ensureJournalFormat_eq_ok.mp format
  obtain rfl : value = v := Option.mem_unique decoded decoded'
  rw [ensureJournalFormat_eq_ok, stored, scope]
  refine ⟨fits, ?_⟩
  rcases kept with ⟨present, rfl⟩ | rfl
  · have two : value.marker = some journalFormatTwo := by
      rcases marker with two | ⟨absent, _⟩
      · exact two
      · simp [absent] at present
    exact ⟨value, decoded, same, .inl two⟩
  · exact ⟨_, E.decode_encode _, same, .inl rfl⟩

theorem Admits.abort {a : AbortRecord} {marked : Journal T} {head : ℕ}
    (admits : j.Admits E trust events) (mark : j.markJournalFormatTwo E = .ok marked)
    (room : (abortsOf events).length < maxAbortRows) (fits : E.bytes (E.encode a) ≤ maxRecord)
    (load : j.loadAbort E trust (E.row a.abort.abortedRevision a) = .ok a)
    (records : recordsOf events' = recordsOf events)
    (aborts : abortsOf events' = abortsOf events ++ [a]) :
    Admits E { j with
        stored := marked.stored
        aborts := some (j.aborts.getD [] ++ [E.row a.abort.abortedRevision a])
        head := head } trust events' ↔ ∀ b ∈ abortsOf events, b.Distinct a := by
  constructor
  · intro next b mem
    have distinct := next.distinct
    rw [aborts, List.pairwise_append] at distinct
    exact distinct.2.2 b mem a (by simp)
  · intro fresh
    refine ⟨admits.profile, admits.parent, ensureJournalFormat_marked admits.format mark rfl rfl,
      ?_, ?_, records ▸ admits.records, ?_, ?_⟩
    · have counted := admits.aborts.length_eq
      simp only [Option.getD_some, List.length_append, List.length_cons, List.length_nil]
      omega
    · rw [Option.getD_some, List.forall_mem_append, List.forall_mem_singleton]
      exact ⟨admits.length, (E.characters_le_bytes _).trans fits⟩
    · rw [aborts]
      exact List.rel_append admits.aborts (.cons load .nil)
    · rw [aborts, List.pairwise_append]
      refine ⟨admits.distinct, List.pairwise_singleton _ _, ?_⟩
      intro b mem c last
      exact List.mem_singleton.mp last ▸ fresh b mem

theorem reads_iff (layout : j.Layout E events p) :
    (∃ history, j.read E trust = .ok history) ↔ j.Admits E trust events := by
  constructor
  · rintro ⟨history, read⟩
    exact (layout.read read).1
  · intro admits
    exact ⟨_, read_eq_ok.mpr ⟨events, p, admits, layout, rfl⟩⟩

theorem decide_admits {request : Request} {token : String} {now : ℕ} {policy : Policy}
    {c : CommittedTransition} (layout : j.Layout E events p)
    (h : j.decide E request token now trust policy = .ok (j', c)) :
    ∃ history, j'.read E trust = .ok history := by
  obtain ⟨admits, _, ⟨rfl, _⟩ | new⟩ := decide_effect layout h
  · exact (reads_iff layout).mpr admits
  · obtain ⟨_, ⟨v, verified, _⟩, _, fits, rfl, p', layout'⟩ := decideNew_effect layout new
    refine (reads_iff layout').mpr (admits.rewrite ?_ ?_)
    · rw [recordsOf_append]
      refine List.rel_append admits.records (.cons ?_ .nil)
      exact loadRecord_row fits (by simp [Record.opened]) (Env.verifyIssuance_historical verified)
    · rw [abortsOf_append, abortsOf_singleton]
      simp [Event.abort?]

/-- A revised record keeps its token, so only its completion is checked anew. -/
theorem replace_admits {r r' : Record} (layout : j.Layout E (front ++ [.decided r]) p)
    (admits : j.Admits E trust (front ++ [.decided r])) (h : j.replace E r' = .ok j')
    (request : r'.request = r.request) (token : r'.token = r.token)
    (completion : ∀ id ∈ r'.completion, id ≠ zeroId ∧ r'.acknowledgements = both true) :
    ∃ p', j'.Layout E (front ++ [.decided r']) p' ∧
      j'.Admits E trust (front ++ [.decided r']) := by
  obtain ⟨p', trail⟩ := trail_revise request layout.trail
  obtain ⟨fits, rows, row, split, _, rfl, layout'⟩ :=
    replace_layout layout (congrArg (·.revision) request) trail h
  refine ⟨p', layout', admits.rewrite ?_ ?_⟩
  · have loads := admits.records
    rw [recordsOf_append, split] at loads
    obtain ⟨rows', row', same, loaded, last⟩ := forall₂_concat_right loads
    obtain ⟨rfl, _⟩ := List.append_inj' same rfl
    obtain ⟨_, _, _, v, verified⟩ := loadRecord_eq_ok.mp last
    have kept : E.verifyHistorical r'.token trust r'.request = .ok v := by
      rw [token, request]
      exact verified
    rw [recordsOf_append]
    exact List.rel_append loaded (.cons (loadRecord_row fits completion kept) .nil)
  · rw [abortsOf_append, abortsOf_append]
    rfl

end Journal

instance : Std.Symm AbortRecord.Distinct where
  symm _ _ h := ⟨h.1.symm, h.2.1.symm, h.2.2.symm⟩

namespace Journal

theorem replace_frame {r : Record} (h : j.replace E r = .ok j') :
    ∃ rows, j' = { j with history := rows } := by
  simp only [replace, run_ok] at h
  obtain ⟨_, _, rfl⟩ := h
  exact ⟨_, rfl⟩

theorem acknowledge_admits {decision : CommittedTransition} {member : Participant}
    {policy : Policy} (layout : j.Layout E events p)
    (h : j.acknowledge E decision member trust policy = .ok j') :
    ∃ history, j'.read E trust = .ok history := by
  obtain ⟨admits, _, r, _, _, _, i, _, ⟨rfl, _⟩ | ⟨front, rfl, unfinished, _, _, replaced⟩⟩ :=
    acknowledge_effect layout h
  · exact (reads_iff layout).mpr admits
  · obtain ⟨p', layout', admits'⟩ := replace_admits layout admits replaced rfl rfl
      (by simp [unfinished])
    exact (reads_iff layout').mpr admits'

theorem complete_admits {decision : CommittedTransition} {id : Id} {policy : Policy}
    (layout : j.Layout E events p) (h : j.complete E decision id trust policy = .ok j') :
    ∃ history, j'.read E trust = .ok history := by
  obtain ⟨admits, _, nonzero, r, _, _, _, all, ⟨rfl, _⟩ | ⟨front, rfl, _, replaced⟩⟩ :=
    complete_effect layout h
  · exact (reads_iff layout).mpr admits
  · have completion : ∀ id' ∈ some id, id' ≠ zeroId ∧ r.acknowledgements = both true := by
      rintro _ ⟨rfl⟩
      exact ⟨nonzero, all⟩
    obtain ⟨p', layout', admits'⟩ := replace_admits layout admits replaced rfl rfl completion
    exact (reads_iff layout').mpr admits'

theorem abort_admits {cancellation : MaintenanceAbort} {token : String} {now : ℕ}
    {policy : Policy} {c : CommittedMaintenanceAbort} (layout : j.Layout E events p)
    (positive : 0 < j.scope.initialRevision)
    (h : j.abort E cancellation token now trust policy = .ok (j', c)) :
    (∃ history, j'.read E trust = .ok history) ↔ ∀ a ∈ abortsOf events,
      a.abort.abortedRevision ≠ cancellation.abortedRevision →
      a.abort.id ≠ cancellation.id ∧ a.abort.abortedRequestId ≠ cancellation.abortedRequestId := by
  obtain ⟨admits, _, valid, binds, _, ⟨rfl, a, mem, rfl, _⟩ | ⟨unused, new⟩⟩ :=
    abort_effect layout h
  · refine iff_of_true ((reads_iff layout).mpr admits) fun b inside other => ?_
    have distinct : b.Distinct a :=
      admits.distinct.forall inside mem fun same => other (same ▸ rfl)
    exact ⟨distinct.1, distinct.2.1⟩
  · obtain ⟨certificate, marked, front, e, p', _, verified, _, room, _, fits, mark, records, aborts,
      _, rfl, layout'⟩ := abortNew_effect layout positive new
    have load : j.loadAbort E trust (E.row cancellation.abortedRevision
        ⟨2, cancellation, token, certificate⟩) = .ok ⟨2, cancellation, token, certificate⟩ :=
      loadAbort_eq_ok.mpr ⟨⟨fits, rfl, E.decode_encode _⟩, rfl, valid, rfl, binds, verified⟩
    rw [reads_iff layout', admits.abort mark room fits load records aborts]
    constructor
    · intro fresh a mem _
      exact ⟨(fresh a mem).1, (fresh a mem).2.1⟩
    · intro fresh a mem
      have apart := fresh a mem (unused a mem)
      exact ⟨apart.1, apart.2, unused a mem⟩

end Journal

theorem JournalScope.validate_positive {s : JournalScope} (valid : s.validate = .ok ()) :
    0 < s.initialRevision := by
  rw [validate, unit_bind_eq_ok, ensure_eq_ok] at valid
  exact valid.1.2.2.2.2.2.2.1

variable {c : JournalCall}

theorem JournalCall.run_reads {history : History} (valid : j.scope.validate = .ok ())
    (read : j.read E trust = .ok history) (h : c.run E trust j = .ok j') :
    (∃ history', j'.read E trust = .ok history') ↔ c.Fresh E j := by
  obtain ⟨events, p, admits, layout, rfl⟩ := Journal.read_eq_ok.mp read
  cases c with
  | decide request token now policy =>
    obtain ⟨c, decided⟩ := fst_eq_ok.mp h
    exact iff_of_true (Journal.decide_admits layout decided) trivial
  | acknowledge decision member policy =>
    exact iff_of_true (Journal.acknowledge_admits layout h) trivial
  | complete decision id policy =>
    exact iff_of_true (Journal.complete_admits layout h) trivial
  | abort cancellation token now policy =>
    obtain ⟨c, aborted⟩ := fst_eq_ok.mp h
    rw [Journal.abort_admits layout (JournalScope.validate_positive valid) aborted, Fresh,
      layout.abortRecords_eq]

/-- Every call reads the journal and finds no loss. -/
theorem JournalCall.run_opens (h : c.run E trust j = .ok j') :
    (∃ history, j.read E trust = .ok history) ∧ j.lossRecordExists E trust = .ok false := by
  cases c with
  | decide request token now policy =>
    simp only [run, Journal.decide, checked_ok] at h
    obtain ⟨_, ⟨_, _, history, read, _, whole, rfl, _⟩, _⟩ := h
    exact ⟨⟨history, read⟩, whole⟩
  | acknowledge decision member policy =>
    simp only [run, Journal.acknowledge, checked_ok] at h
    obtain ⟨history, read, _, _, _, _, whole, rfl, _⟩ := h
    exact ⟨⟨history, read⟩, whole⟩
  | complete decision id policy =>
    simp only [run, Journal.complete, checked_ok] at h
    obtain ⟨_, history, read, _, _, _, _, whole, rfl, _⟩ := h
    exact ⟨⟨history, read⟩, whole⟩
  | abort cancellation token now policy =>
    simp only [run, Journal.abort, checked_ok] at h
    obtain ⟨_, ⟨_, _, history, read, _, _, whole, rfl, _⟩, _⟩ := h
    exact ⟨⟨history, read⟩, whole⟩

theorem JournalCall.run_frame (positive : 0 < j.scope.initialRevision)
    (h : c.run E trust j = .ok j') : ∃ stored head rows aborts,
      j' = { j with stored := stored, head := head, history := rows, aborts := aborts } ∧
      (stored = j.stored ∧ aborts = j.aborts ∨ ∃ marked row, j.markJournalFormatTwo E = .ok marked ∧
        stored = marked.stored ∧ aborts = some (j.aborts.getD [] ++ [row])) := by
  obtain ⟨⟨history, read⟩, _⟩ := run_opens h
  obtain ⟨events, p, admits, layout, rfl⟩ := Journal.read_eq_ok.mp read
  cases c with
  | decide request token now policy =>
    obtain ⟨c, decided⟩ := fst_eq_ok.mp h
    obtain ⟨_, _, ⟨rfl, _⟩ | new⟩ := Journal.decide_effect layout decided
    · exact ⟨_, _, _, _, rfl, .inl ⟨rfl, rfl⟩⟩
    · obtain ⟨_, _, _, _, rfl, _⟩ := Journal.decideNew_effect layout new
      exact ⟨_, _, _, _, rfl, .inl ⟨rfl, rfl⟩⟩
  | acknowledge decision member policy =>
    obtain ⟨_, _, r, _, _, _, i, _, ⟨rfl, _⟩ | ⟨front, rfl, _, _, _, replaced⟩⟩ :=
      Journal.acknowledge_effect layout h
    · exact ⟨_, _, _, _, rfl, .inl ⟨rfl, rfl⟩⟩
    · obtain ⟨rows, rfl⟩ := Journal.replace_frame replaced
      exact ⟨_, _, _, _, rfl, .inl ⟨rfl, rfl⟩⟩
  | complete decision id policy =>
    obtain ⟨_, _, _, r, _, _, _, _, ⟨rfl, _⟩ | ⟨front, rfl, _, replaced⟩⟩ :=
      Journal.complete_effect layout h
    · exact ⟨_, _, _, _, rfl, .inl ⟨rfl, rfl⟩⟩
    · obtain ⟨rows, rfl⟩ := Journal.replace_frame replaced
      exact ⟨_, _, _, _, rfl, .inl ⟨rfl, rfl⟩⟩
  | abort cancellation token now policy =>
    obtain ⟨c, aborted⟩ := fst_eq_ok.mp h
    obtain ⟨_, _, _, _, _, ⟨rfl, _⟩ | ⟨_, new⟩⟩ := Journal.abort_effect layout aborted
    · exact ⟨_, _, _, _, rfl, .inl ⟨rfl, rfl⟩⟩
    · obtain ⟨_, _, _, _, _, _, _, _, _, _, _, mark, _, _, _, rfl, _⟩ :=
        Journal.abortNew_effect layout positive new
      exact ⟨_, _, _, _, rfl, .inr ⟨_, _, mark, rfl, rfl⟩⟩

/-- Every successful call is read back, exactly when it is fresh; so is every run
of fresh calls. -/
theorem journal_reads_back {history : History} (valid : j.scope.validate = .ok ())
    (read : j.read E trust = .ok history) :
    (∀ (c : JournalCall) j', c.run E trust j = .ok j' →
      ((∃ history', j'.read E trust = .ok history') ↔ c.Fresh E j)) ∧
    ∀ j', Relation.ReflTransGen (fun a b => ∃ c : JournalCall, c.Fresh E a ∧
        c.run E trust a = .ok b) j j' → ∃ history', j'.read E trust = .ok history' := by
  refine ⟨fun c j' ran => c.run_reads valid read ran, fun j' run => ?_⟩
  have kept : j'.scope.validate = .ok () ∧ ∃ history', j'.read E trust = .ok history' := by
    induction run with
    | refl => exact ⟨valid, history, read⟩
    | tail _ step ih =>
      obtain ⟨valid, _, read⟩ := ih
      obtain ⟨c, fresh, ran⟩ := step
      obtain ⟨_, _, _, _, rfl, _⟩ := c.run_frame (JournalScope.validate_positive valid) ran
      exact ⟨valid, (c.run_reads valid read ran).mpr fresh⟩
  exact kept.2

namespace Sample

def created : Journal fun α => α where
  scope := scope
  stored := ⟨scope, none⟩
  head := 0

theorem scope_valid : scope.validate = .ok () := by decide +kernel

theorem create_created : Journal.create env scope = .ok created := by
  rw [Journal.create, scope_valid]
  rfl

def committed (n : ℕ) : CommittedTransition where
  request := request n
  token := token .transition n
  tokenDigest := mark (n + 4)
  certificateId := mark 1
  acknowledgements := both false
  completion := none

def decision (n : ℕ) : JournalCall := .decide (request n) (token .transition n) 0 policy

def acknowledgement (n : ℕ) (i : Fin 2) : JournalCall :=
  .acknowledge (committed n) (participant n i) policy

def completion (n : ℕ) : JournalCall := .complete (committed n) (mark 1) policy

def abortion (n : ℕ) : JournalCall := .abort (cancellation n) (token .abort n) 0 policy

def after (c : JournalCall) (j : Journal fun α => α) : Journal fun α => α :=
  (c.run env trusted j).toOption.getD j

theorem run_after {j : Journal fun α => α} (h : (c.run env trusted j).toOption.isSome) :
    c.run env trusted j = .ok (after c j) :=
  ok_getD h

def decided : Journal fun α => α := after (decision 1) created

def halfway : Journal fun α => α := after (acknowledgement 1 0) decided

def acknowledged : Journal fun α => α := after (acknowledgement 1 1) halfway

def completed : Journal fun α => α := after (completion 1) acknowledged

theorem run_decision : (decision 1).run env trusted created = .ok decided :=
  run_after (by decide +kernel)

theorem run_acknowledgement : (acknowledgement 1 0).run env trusted decided = .ok halfway ∧
    (acknowledgement 1 1).run env trusted halfway = .ok acknowledged :=
  ⟨run_after (by decide +kernel), run_after (by decide +kernel)⟩

theorem run_completion : (completion 1).run env trusted acknowledged = .ok completed :=
  run_after (by decide +kernel)

theorem journal_reads_back_completed :
    (∀ (c : JournalCall) j', c.run env trusted completed = .ok j' →
      ((∃ history', j'.read env trusted = .ok history') ↔ c.Fresh env completed)) ∧
    ∀ j', Relation.ReflTransGen (fun a b => ∃ c : JournalCall, c.Fresh env a ∧
        c.run env trusted a = .ok b) completed j' → ∃ history', j'.read env trusted = .ok history' :=
  journal_reads_back (by decide +kernel) (ok_get (by decide +kernel))

/-- Two aborts of revisions that were never decided may carry one id; then nothing is
read any more. -/
theorem abort_id_twice :
    (abortion 1).run env trusted created = .ok (after (abortion 1) created) ∧
    ((after (abortion 1) created).read env trusted).toOption.isSome ∧
    (abortion 2).run env trusted (after (abortion 1) created) =
      .ok (after (abortion 2) (after (abortion 1) created)) ∧
    ((after (abortion 2) (after (abortion 1) created)).read env trusted).toOption = none :=
  ⟨run_after (by decide +kernel), by decide +kernel, run_after (by decide +kernel),
    by decide +kernel⟩

end Sample

end TerrapiVault.Recovery
