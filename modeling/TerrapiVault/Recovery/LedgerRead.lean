import TerrapiVault.Recovery.Ledger
import Mathlib.Data.List.TakeWhile

/-! `Journal::read` as a replay of the events: the loop over the two tables accepts
exactly the tables whose merged events replay. -/
namespace TerrapiVault.Recovery

open Replication (ensure ensure_eq_ok)

variable {T : Type → Type} {E : Env T} {s : JournalScope} {trust : Trust}

/-- Each selected record replaces the one before. -/
def select (revision : Option ℕ) (selected : Option Record) (r : Record) : Option Record :=
  if revision = some r.request.revision then some r else selected

theorem settle_eq (passes : ℕ → Bool) (aborts : List AbortRecord) (w : Walk) :
    w.settle s passes aborts = (do
      let p ← ((aborts.takeWhile fun a => passes a.abort.abortedRevision).map
        Event.skipped).foldlM (Position.step E s) w.toPosition
      pure ⟨p, w.selected, aborts.dropWhile fun a => passes a.abort.abortedRevision⟩) := by
  induction aborts generalizing w with
  | nil => rfl
  | cons a rest ih =>
    by_cases passed : passes a.abort.abortedRevision
    · simp only [Walk.settle, passed, if_true, List.takeWhile_cons_of_pos,
        List.dropWhile_cons_of_pos, List.map_cons, List.foldlM_cons, Position.step, bind_assoc,
        pure_bind, ih]
    · simp only [Walk.settle, passed, List.takeWhile_cons_of_neg, List.dropWhile_cons_of_neg,
        not_false_eq_true, List.map_nil, List.foldlM_nil, pure_bind, if_false, Bool.false_eq_true]

theorem load_eq_ok {α : Type} {text : T α} {digest : Id} {limit integrity : String} {value : α} :
    E.load text digest limit integrity = .ok value ↔
      E.bytes text ≤ maxRecord ∧ digest = E.sha256 text ∧ E.decode text = some value := by
  simp only [Env.load, Env.parse, unit_bind_eq_ok, ensure_eq_ok, require_eq_ok]

variable {row : Row T Record}

theorem loadRecord_eq_ok {r : Record} :
    E.loadRecord trust row = .ok r ↔
      (E.bytes row.record ≤ maxRecord ∧ row.digest = E.sha256 row.record ∧
        E.decode row.record = some r) ∧
      (∀ id ∈ r.completion, id ≠ zeroId ∧ r.acknowledgements = both true) ∧
      row.revision = r.request.revision ∧ ∃ v, E.verifyHistorical r.token trust r.request = .ok v := by
  simp only [Env.loadRecord, checked_ok, load_eq_ok]
  constructor
  · rintro ⟨_, loaded, completion, revision, v, verified, rfl⟩
    exact ⟨loaded, completion, revision, v, verified⟩
  · rintro ⟨loaded, completion, revision, v, verified⟩
    exact ⟨r, loaded, completion, revision, v, verified, rfl⟩

theorem loadRecord_revision {r : Record} (h : E.loadRecord trust row = .ok r) :
    row.revision = r.request.revision :=
  (loadRecord_eq_ok.mp h).2.2.1

theorem take_record (revision : Option ℕ) (w : Walk) (r : Record) :
    (do
      ensure (r.request.id ∉ w.ids) "duplicate transition request id"
      s.chain w.effective w.consumed r
      let w : Walk := { w with
        ids := w.ids ++ [r.request.id]
        selected := select revision w.selected r
        consumed := some r.request.revision }
      match w.pending with
      | [] => pure (w.accept r)
      | a :: rest =>
        if a.abort.abortedRevision = r.request.revision then do
          E.decidedAbort a.abort r
          pure { w with pending := rest }
        else pure (w.accept r)) = (do
      let p ← w.step E s (meet r w.pending).1
      pure (⟨p, select revision w.selected r, (meet r w.pending).2⟩ : Walk)) := by
  obtain ⟨position, selected, pending⟩ := w
  cases pending with
  | nil =>
    simp only [meet, Position.step, Walk.accept, bind_assoc, pure_bind]
  | cons a rest =>
    by_cases same : a.abort.abortedRevision = r.request.revision
    · simp only [meet, same, if_true, Position.step, bind_assoc, pure_bind]
    · simp only [meet, same, if_false, Position.step, Walk.accept, bind_assoc, pure_bind]

theorem readRow_eq (revision : Option ℕ) (w : Walk) {r : Record}
    (load : E.loadRecord trust row = .ok r) :
    E.readRow s trust revision w row = (do
      let p ← ((w.pending.takeWhile fun a => a.abort.abortedRevision < r.request.revision).map
        Event.skipped).foldlM (Position.step E s) w.toPosition
      let met := meet r (w.pending.dropWhile fun a => a.abort.abortedRevision < r.request.revision)
      let p ← p.step E s met.1
      pure ⟨p, select revision w.selected r, met.2⟩) := by
  simp only [Env.readRow, settle_eq (E := E), loadRecord_revision load, bind_assoc, pure_bind, load,
    ok_bind]
  refine bind_congr fun p => ?_
  exact take_record revision ⟨p, w.selected, _⟩ r

theorem readRow_loaded {revision : Option ℕ} {w w' : Walk}
    (h : E.readRow s trust revision w row = .ok w') : ∃ r, E.loadRecord trust row = .ok r := by
  simp only [Env.readRow, bind_eq_ok] at h
  obtain ⟨_, _, r, load, _⟩ := h
  exact ⟨r, load⟩

theorem foldlM_readRow_eq (revision : Option ℕ) {rows : List (Row T Record)}
    {records : List Record} (w : Walk)
    (loads : List.Forall₂ (fun row r => E.loadRecord trust row = .ok r) rows records) :
    (rows.foldlM (E.readRow s trust revision) w >>= fun w => w.settle s (fun _ => true) w.pending) =
      (do
        let p ← (merge records w.pending).foldlM (Position.step E s) w.toPosition
        pure ⟨p, records.foldl (select revision) w.selected, []⟩) := by
  induction loads generalizing w with
  | nil =>
    have all : w.pending.takeWhile (fun _ => true) = w.pending :=
      List.takeWhile_eq_self_iff.mpr (by simp)
    have none : w.pending.dropWhile (fun _ => true) = [] :=
      List.dropWhile_eq_nil_iff.mpr (by simp)
    simp only [List.foldlM_nil, pure_bind, settle_eq (E := E), merge, List.foldl_nil, all, none]
  | cons load _ ih =>
    simp only [List.foldlM_cons, readRow_eq revision w load, bind_assoc, pure_bind, ih, merge,
      List.foldlM_append, List.foldl_cons]

theorem foldlM_readRow_loaded {revision : Option ℕ} {rows : List (Row T Record)} {w w' : Walk}
    (h : rows.foldlM (E.readRow s trust revision) w = .ok w') :
    ∃ records, List.Forall₂ (fun row r => E.loadRecord trust row = .ok r) rows records := by
  induction rows generalizing w with
  | nil => exact ⟨[], .nil⟩
  | cons row rows ih =>
    rw [List.foldlM_cons, bind_eq_ok] at h
    obtain ⟨next, first, rest⟩ := h
    obtain ⟨r, load⟩ := readRow_loaded first
    obtain ⟨records, loads⟩ := ih rest
    exact ⟨r :: records, .cons load loads⟩

/-- What `read_aborts` demands of two of its rows. -/
def AbortRecord.Distinct (a b : AbortRecord) : Prop :=
  a.abort.id ≠ b.abort.id ∧ a.abort.abortedRequestId ≠ b.abort.abortedRequestId ∧
    a.abort.abortedRevision ≠ b.abort.abortedRevision

namespace Journal

variable {j : Journal T}

theorem loadAbort_eq_ok {row : Row T AbortRecord} {a : AbortRecord} :
    j.loadAbort E trust row = .ok a ↔
      (E.bytes row.record ≤ maxRecord ∧ row.digest = E.sha256 row.record ∧
        E.decode row.record = some a) ∧
      a.format = 2 ∧ a.abort.Valid ∧ row.revision = a.abort.abortedRevision ∧
      j.scope.BindsAbort a.abort ∧
      E.verifyAbortHistorical a.token trust a.abort = .ok a.certificateId := by
  simp only [loadAbort, MaintenanceAbort.validate, checked_ok, load_eq_ok]
  constructor
  · rintro ⟨_, loaded, format, valid, revision, binds, _, verified, rfl, rfl⟩
    exact ⟨loaded, format, valid, revision, binds, verified⟩
  · rintro ⟨loaded, format, valid, revision, binds, verified⟩
    exact ⟨a, loaded, format, valid, revision, binds, _, verified, rfl, rfl⟩

theorem loadAbort_revision {row : Row T AbortRecord} {a : AbortRecord}
    (h : j.loadAbort E trust row = .ok a) : row.revision = a.abort.abortedRevision :=
  (loadAbort_eq_ok.mp h).2.2.2.1

theorem collectAborts_eq_ok {rows : List (Row T AbortRecord)} {seen aborts : List AbortRecord} :
    j.collectAborts E trust seen rows = .ok aborts ↔ ∃ added, aborts = seen ++ added ∧
      List.Forall₂ (fun row a => j.loadAbort E trust row = .ok a) rows added ∧
        (∀ a ∈ seen, ∀ b ∈ added, a.Distinct b) ∧ added.Pairwise AbortRecord.Distinct := by
  induction rows generalizing seen with
  | nil =>
    simp only [collectAborts, pure_inj, List.forall₂_nil_left_iff]
    constructor
    · rintro rfl
      exact ⟨[], by simp⟩
    · rintro ⟨added, rfl, rfl, _⟩
      simp
  | cons row rows ih =>
    simp only [collectAborts, checked_ok, ih]
    constructor
    · rintro ⟨a, load, ids, revisions, added, rfl, loads, apart, pairwise⟩
      have fresh : ∀ b ∈ seen, b.Distinct a := by
        intro b mem
        exact ⟨(ids b mem).1, (ids b mem).2, loadAbort_revision load ▸ revisions b mem⟩
      refine ⟨a :: added, by simp, .cons load loads, ?_, ?_⟩
      · intro b mem c inside
        rcases List.mem_cons.mp inside with rfl | inside
        · exact fresh b mem
        · exact apart b (by simp [mem]) c inside
      · exact List.pairwise_cons.mpr ⟨fun c inside => apart a (by simp) c inside, pairwise⟩
    · rintro ⟨added, rfl, loads, apart, pairwise⟩
      cases loads with
      | @cons _ a _ added load loads =>
        rw [List.pairwise_cons] at pairwise
        refine ⟨a, load, ?_, ?_, added, by simp, loads, ?_, pairwise.2⟩
        · exact fun b mem => ⟨(apart b mem a (by simp)).1, (apart b mem a (by simp)).2.1⟩
        · exact fun b mem => loadAbort_revision load ▸ (apart b mem a (by simp)).2.2
        · intro b mem c inside
          rcases List.mem_append.mp mem with mem | mem
          · exact apart b mem c (by simp [inside])
          · exact List.mem_singleton.mp mem ▸ pairwise.1 c inside

theorem readAborts_eq_ok {aborts : List AbortRecord} :
    j.readAborts E trust = .ok aborts ↔
      ((j.aborts.getD []).length ≤ maxAbortRows ∧
        ∀ row ∈ j.aborts.getD [], E.characters row.record ≤ maxRecord) ∧
      List.Forall₂ (fun row a => j.loadAbort E trust row = .ok a) (j.aborts.getD []) aborts ∧
        aborts.Pairwise AbortRecord.Distinct := by
  cases table : j.aborts with
  | none =>
    simp only [readAborts, table, Option.getD_none, List.forall₂_nil_left_iff, pure_inj]
    constructor
    · rintro rfl
      simp
    · rintro ⟨_, rfl, _⟩
      rfl
  | some rows =>
    simp only [readAborts, table, Option.getD_some, unit_bind_eq_ok, ensure_eq_ok,
      collectAborts_eq_ok, List.nil_append, List.not_mem_nil, false_implies, implies_true,
      true_and, exists_eq_left', and_assoc]

end Journal

/-- The row decodes to the value and is filed under its revision. -/
def Row.Holds {α : Type} (E : Env T) (key : α → ℕ) (row : Row T α) (value : α) : Prop :=
  E.decode row.record = some value ∧ row.revision = key value

theorem holds_revisions {α : Type} {key : α → ℕ} {rows : List (Row T α)} {values : List α}
    (h : List.Forall₂ (Row.Holds E key) rows values) :
    rows.map Row.revision = values.map key := by
  rw [← List.forall₂_eq_eq_eq, List.forall₂_map_left_iff, List.forall₂_map_right_iff]
  exact h.imp fun _ _ holds => holds.2

theorem holds_unique {α : Type} {key : α → ℕ} {rows : List (Row T α)} {values values' : List α}
    (h : List.Forall₂ (Row.Holds E key) rows values)
    (h' : List.Forall₂ (Row.Holds E key) rows values') : values = values' := by
  refine (Relator.RightUnique.forall₂ ?_) h h'
  exact fun row v v' holds holds' => Option.mem_unique holds.1 holds'.1

def Record.revision (r : Record) : ℕ := r.request.revision

def AbortRecord.revision (a : AbortRecord) : ℕ := a.abort.abortedRevision

namespace Journal

/-- The events of a journal, whatever the trust: what its two tables decode to. -/
structure Layout (E : Env T) (j : Journal T) (events : List Event) (p : Position) : Prop where
  history : List.Forall₂ (Row.Holds E Record.revision) j.history (recordsOf events)
  aborts : List.Forall₂ (Row.Holds E AbortRecord.revision) (j.aborts.getD []) (abortsOf events)
  trail : E.trail j.scope events = .ok p
  head : j.head = p.lastRevision j.scope

/-- What a reader under `trust` checks beside the replay. -/
structure Admits (E : Env T) (j : Journal T) (trust : Trust) (events : List Event) : Prop where
  profile : trust.profile = j.scope.profile
  parent : j.validateSuccessorParent E trust = .ok ()
  format : j.ensureJournalFormat E = .ok ()
  count : (j.aborts.getD []).length ≤ maxAbortRows
  length : ∀ row ∈ j.aborts.getD [], E.characters row.record ≤ maxRecord
  records : List.Forall₂ (fun row r => E.loadRecord trust row = .ok r) j.history (recordsOf events)
  aborts : List.Forall₂ (fun row a => j.loadAbort E trust row = .ok a) (j.aborts.getD [])
    (abortsOf events)
  distinct : (abortsOf events).Pairwise AbortRecord.Distinct

end Journal

def Position.history (p : Position) (s : JournalScope) (events : List Event) : History :=
  ⟨p.effective, p.completed, p.ids, abortsOf events, p.consumed, p.lastRevision s⟩

namespace Journal

variable {j : Journal T} {events : List Event} {p : Position}

theorem Admits.layout (admits : j.Admits E trust events) (trail : E.trail j.scope events = .ok p)
    (head : j.head = p.lastRevision j.scope) : j.Layout E events p := by
  refine ⟨admits.records.imp fun row r load => ?_, admits.aborts.imp fun row a load => ?_,
    trail, head⟩
  · exact ⟨(loadRecord_eq_ok.mp load).1.2.2, loadRecord_revision load⟩
  · exact ⟨(loadAbort_eq_ok.mp load).1.2.2, loadAbort_revision load⟩

/-- The reader succeeds exactly on a journal whose events replay. -/
theorem readWithRevision_eq_ok {revision : Option ℕ} {history : History}
    {selected : Option Record} :
    j.readWithRevision E trust revision = .ok (history, selected) ↔
      ∃ events p, j.Admits E trust events ∧ j.Layout E events p ∧
        history = p.history j.scope events ∧
        selected = (recordsOf events).foldl (select revision) none := by
  constructor
  · intro h
    simp only [readWithRevision, checked_ok, readAborts_eq_ok] at h
    obtain ⟨profile, parent, format, aborts, ⟨⟨count, length⟩, loads, distinct⟩, w, loop, w',
      rest, head, rfl, rfl⟩ := h
    obtain ⟨records, loaded⟩ := foldlM_readRow_loaded loop
    have whole := foldlM_readRow_eq (s := j.scope) revision (Walk.start aborts) loaded
    rw [loop, ok_bind, rest] at whole
    obtain ⟨p, trail, same⟩ := bind_eq_ok.mp whole.symm
    obtain rfl := Except.ok.inj same
    have admits : j.Admits E trust (merge records aborts) :=
      ⟨profile, parent, format, count, length, (merge_records records aborts).symm ▸ loaded,
        (merge_aborts records aborts).symm ▸ loads, (merge_aborts records aborts).symm ▸ distinct⟩
    refine ⟨merge records aborts, p, admits, admits.layout trail head, ?_, ?_⟩
    · rw [Position.history, merge_aborts]
      rfl
    · rw [merge_records]
      rfl
  · rintro ⟨events, p, admits, layout, rfl, rfl⟩
    have whole := foldlM_readRow_eq (s := j.scope) revision
      (Walk.start (abortsOf events)) admits.records
    have trail : (merge (recordsOf events) (Walk.start (abortsOf events)).pending).foldlM
        (Position.step E j.scope) (Walk.start (abortsOf events)).toPosition = .ok p :=
      (merge_of_trail layout.trail).symm ▸ layout.trail
    rw [trail, ok_bind, pure_eq] at whole
    obtain ⟨w, loop, rest⟩ := bind_eq_ok.mp whole
    simp only [readWithRevision, checked_ok, readAborts_eq_ok]
    exact ⟨admits.profile, admits.parent, admits.format, abortsOf events,
      ⟨⟨admits.count, admits.length⟩, admits.aborts, admits.distinct⟩, w, loop, _, rest,
      layout.head, rfl, rfl⟩

theorem read_eq_ok {history : History} : j.read E trust = .ok history ↔
    ∃ events p, j.Admits E trust events ∧ j.Layout E events p ∧
      history = p.history j.scope events := by
  simp only [read, run_ok]
  constructor
  · rintro ⟨⟨history, selected⟩, whole, rfl⟩
    obtain ⟨events, p, admits, layout, rfl, _⟩ := readWithRevision_eq_ok.mp whole
    exact ⟨events, p, admits, layout, rfl⟩
  · rintro ⟨events, p, admits, layout, rfl⟩
    exact ⟨_, readWithRevision_eq_ok.mpr ⟨events, p, admits, layout, rfl, rfl⟩, rfl⟩

theorem Layout.unique {events' : List Event} {p' : Position} (layout : j.Layout E events p)
    (layout' : j.Layout E events' p') : events = events' ∧ p = p' := by
  have records := holds_unique layout.history layout'.history
  have aborts := holds_unique layout.aborts layout'.aborts
  obtain rfl : events = events' := by
    rw [← merge_of_trail layout.trail, ← merge_of_trail layout'.trail, records, aborts]
  exact ⟨rfl, ok_unique layout.trail layout'.trail⟩

theorem Layout.read {history : History} (layout : j.Layout E events p)
    (h : j.read E trust = .ok history) :
    j.Admits E trust events ∧ history = p.history j.scope events := by
  obtain ⟨events', p', admits, layout', rfl⟩ := read_eq_ok.mp h
  obtain ⟨rfl, rfl⟩ := layout.unique layout'
  exact ⟨admits, rfl⟩

end Journal

end TerrapiVault.Recovery
