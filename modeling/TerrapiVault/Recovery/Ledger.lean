import TerrapiVault.Recovery.Transitions
import Mathlib.Data.List.Forall2
import Mathlib.Data.List.Induction

/-! The journal as one list of events in revision order. A revision is consumed by
a decided record, by a decided record and the abort that cancelled it, or by an
abort of a request that was never decided. `trail` replays the events. -/
namespace TerrapiVault.Recovery

open Replication

variable {T : Type → Type}

inductive Event where
  | decided (r : Record)
  | cancelled (r : Record) (a : AbortRecord)
  | skipped (a : AbortRecord)

namespace Event

def revision : Event → ℕ
  | .decided r => r.request.revision
  | .cancelled r _ => r.request.revision
  | .skipped a => a.abort.abortedRevision

def record? : Event → Option Record
  | .decided r => some r
  | .cancelled r _ => some r
  | .skipped _ => none

def abort? : Event → Option AbortRecord
  | .decided _ => none
  | .cancelled _ a => some a
  | .skipped a => some a

/-- The record of an event that no abort took. -/
def live? : Event → Option Record
  | .decided r => some r
  | .cancelled _ _ => none
  | .skipped _ => none

end Event

def recordsOf (events : List Event) : List Record := events.filterMap Event.record?

def abortsOf (events : List Event) : List AbortRecord := events.filterMap Event.abort?

def liveOf (events : List Event) : List Record := events.filterMap Event.live?

@[simp] theorem recordsOf_append (a b : List Event) :
    recordsOf (a ++ b) = recordsOf a ++ recordsOf b := List.filterMap_append

@[simp] theorem abortsOf_append (a b : List Event) :
    abortsOf (a ++ b) = abortsOf a ++ abortsOf b := List.filterMap_append

@[simp] theorem liveOf_append (a b : List Event) : liveOf (a ++ b) = liveOf a ++ liveOf b :=
  List.filterMap_append

theorem recordsOf_singleton (e : Event) : recordsOf [e] = e.record?.toList := by
  cases e <;> rfl

theorem abortsOf_singleton (e : Event) : abortsOf [e] = e.abort?.toList := by
  cases e <;> rfl

theorem liveOf_singleton (e : Event) : liveOf [e] = e.live?.toList := by
  cases e <;> rfl

theorem mem_abortsOf_concat {events : List Event} {e : Event} {a : AbortRecord} :
    a ∈ abortsOf (events ++ [e]) ↔ a ∈ abortsOf events ∨ e.abort? = some a := by
  simp [abortsOf_singleton]

theorem mem_liveOf_concat {events : List Event} {e : Event} {r : Record} :
    r ∈ liveOf (events ++ [e]) ↔ r ∈ liveOf events ∨ e.live? = some r := by
  simp [liveOf_singleton]

variable {r : Record} {a : AbortRecord}

theorem JournalScope.chain_expected {s : JournalScope} {effective : Option Record}
    {previous : Option ℕ} (h : s.chain effective previous r = .ok ()) :
    s.expected previous = .ok r.request.revision := by
  simp only [chain, bind_eq_ok] at h
  obtain ⟨_, _, n, expected, rest⟩ := h
  cases effective with
  | none => rw [expected, ensure_eq_ok.mp rest]
  | some q =>
    obtain ⟨_, linked, _⟩ := bind_eq_ok.mp rest
    rw [expected, (ensure_eq_ok.mp linked).2.1]

namespace Position

def step (E : Env T) (s : JournalScope) (p : Position) : Event → Result Position
  | .decided r => do
    ensure (r.request.id ∉ p.ids) "duplicate transition request id"
    s.chain p.effective p.consumed r
    pure {
      effective := some r
      completed := if r.completion.isSome then some r else p.completed
      consumed := some r.request.revision
      ids := p.ids ++ [r.request.id] }
  | .cancelled r a => do
    ensure (r.request.id ∉ p.ids) "duplicate transition request id"
    s.chain p.effective p.consumed r
    E.decidedAbort a.abort r
    pure { p with consumed := some r.request.revision, ids := p.ids ++ [r.request.id] }
  | .skipped a => do
    s.undecidedAbort a p.consumed p.effective
    pure { p with consumed := some a.abort.abortedRevision }

def lastRevision (p : Position) (s : JournalScope) : ℕ := p.consumed.getD (s.initialRevision - 1)

end Position

def Env.trail (E : Env T) (s : JournalScope) (events : List Event) : Result Position :=
  events.foldlM (Position.step E s) Position.start

/-- A record takes the abort at its own revision, if one is next. -/
def meet (r : Record) : List AbortRecord → Event × List AbortRecord
  | [] => (.decided r, [])
  | a :: rest =>
    if a.abort.abortedRevision = r.request.revision then (.cancelled r a, rest)
    else (.decided r, a :: rest)

/-- The two tables read side by side. -/
def merge : List Record → List AbortRecord → List Event
  | [], aborts => aborts.map .skipped
  | r :: records, aborts =>
    let before := aborts.takeWhile fun a => a.abort.abortedRevision < r.request.revision
    let met := meet r (aborts.dropWhile fun a => a.abort.abortedRevision < r.request.revision)
    before.map .skipped ++ met.1 :: merge records met.2

theorem meet_record (r : Record) (aborts : List AbortRecord) : (meet r aborts).1.record? = some r := by
  cases aborts with
  | nil => rfl
  | cons a rest =>
    simp only [meet]
    split_ifs <;> rfl

theorem meet_aborts (r : Record) (aborts : List AbortRecord) :
    abortsOf [(meet r aborts).1] ++ (meet r aborts).2 = aborts := by
  cases aborts with
  | nil => rfl
  | cons a rest =>
    simp only [meet]
    split_ifs <;> rfl

@[simp] theorem recordsOf_skipped (aborts : List AbortRecord) :
    recordsOf (aborts.map .skipped) = [] := by
  simp [recordsOf, Event.record?]

@[simp] theorem abortsOf_skipped (aborts : List AbortRecord) :
    abortsOf (aborts.map .skipped) = aborts := by
  simp [abortsOf, List.filterMap_map, Function.comp_def, Event.abort?]

theorem merge_records (records : List Record) (aborts : List AbortRecord) :
    recordsOf (merge records aborts) = records := by
  induction records generalizing aborts with
  | nil => simp [merge]
  | cons r records ih =>
    rw [merge, recordsOf_append, recordsOf_skipped, List.nil_append, recordsOf,
      List.filterMap_cons_some (meet_record _ _)]
    exact congrArg _ (ih _)

theorem merge_aborts (records : List Record) (aborts : List AbortRecord) :
    abortsOf (merge records aborts) = aborts := by
  induction records generalizing aborts with
  | nil => simp [merge]
  | cons r records ih =>
    have split := List.append_cons ((aborts.takeWhile fun a =>
      a.abort.abortedRevision < r.request.revision).map Event.skipped)
    rw [merge, split, abortsOf_append, abortsOf_append, abortsOf_skipped, ih, List.append_assoc,
      meet_aborts, List.takeWhile_append_dropWhile]

section Trail

variable {E : Env T} {s : JournalScope} {events : List Event} {e : Event} {p p' : Position}

theorem trail_concat : E.trail s (events ++ [e]) = .ok p' ↔
    ∃ p, E.trail s events = .ok p ∧ p.step E s e = .ok p' := by
  rw [Env.trail, List.foldlM_append, bind_eq_ok]
  simp only [List.foldlM_cons, List.foldlM_nil, bind_pure]
  rfl

theorem step_eq_ok (h : p.step E s e = .ok p') :
    s.expected p.consumed = .ok e.revision ∧ p'.consumed = some e.revision ∧
      p'.ids = p.ids ++ (recordsOf [e]).map (fun r => r.request.id) ∧
      (∀ r ∈ e.record?, r.request.id ∉ p.ids ∧ s.chain p.effective p.consumed r = .ok ()) ∧
      p'.effective = e.live?.or p.effective ∧
      p'.completed = (e.live?.filter fun r => r.completion.isSome).or p.completed := by
  cases e with
  | decided r =>
    simp only [Position.step, unit_bind_eq_ok, ensure_eq_ok, pure_inj] at h
    obtain ⟨fresh, chained, rfl⟩ := h
    refine ⟨?_, rfl, rfl, ?_, rfl, ?_⟩
    · exact JournalScope.chain_expected chained
    · rintro _ ⟨rfl⟩
      exact ⟨fresh, chained⟩
    · by_cases done : r.completion.isSome <;> simp [Event.live?, Option.filter, done]
  | cancelled r a =>
    simp only [Position.step, unit_bind_eq_ok, ensure_eq_ok, pure_inj] at h
    obtain ⟨fresh, chained, _, rfl⟩ := h
    refine ⟨JournalScope.chain_expected chained, rfl, rfl, ?_, rfl, rfl⟩
    rintro _ ⟨rfl⟩
    exact ⟨fresh, chained⟩
  | skipped a =>
    simp only [Position.step, unit_bind_eq_ok, pure_inj] at h
    obtain ⟨passed, rfl⟩ := h
    simp only [JournalScope.undecidedAbort, checked_ok] at passed
    obtain ⟨n, expected, taken, _⟩ := passed
    refine ⟨expected.trans (congrArg _ taken.2.symm), rfl, by simp [recordsOf, Event.record?], ?_,
      rfl, rfl⟩
    simp [Event.record?]

theorem trail_consumed (h : E.trail s events = .ok p) :
    p.consumed = events.getLast?.map Event.revision := by
  cases events using List.reverseRecOn with
  | nil =>
    obtain rfl : Position.start = p := Except.ok.inj h
    rfl
  | append_singleton events e =>
    obtain ⟨_, _, stepped⟩ := trail_concat.mp h
    rw [(step_eq_ok stepped).2.1, List.getLast?_concat]
    rfl

theorem trail_revisions (h : E.trail s events = .ok p) :
    events.map Event.revision = List.range' s.initialRevision events.length := by
  induction events using List.reverseRecOn generalizing p with
  | nil => rfl
  | append_singleton events e ih =>
    obtain ⟨q, before, stepped⟩ := trail_concat.mp h
    have revisions := ih before
    have next := (step_eq_ok stepped).1
    have value : e.revision = s.initialRevision + events.length := by
      rw [trail_consumed before] at next
      cases events using List.reverseRecOn with
      | nil => exact (Except.ok.inj next).symm
      | append_singleton front last =>
        rw [List.getLast?_concat, Option.map_some, JournalScope.expected, checkedSucc_eq_ok] at next
        rw [List.map_append, List.length_append, List.range'_append_1.symm] at revisions
        have last_eq : last.revision = s.initialRevision + front.length := by
          simpa using List.append_inj_right' revisions rfl
        simp only [List.length_append, List.length_cons, List.length_nil]
        omega
    rw [List.map_append, List.length_append, List.range'_append_1.symm, revisions, List.map_cons,
      List.map_nil, value]
    rfl

theorem trail_ids (h : E.trail s events = .ok p) :
    p.ids = (recordsOf events).map (fun r => r.request.id) ∧ p.ids.Nodup := by
  induction events using List.reverseRecOn generalizing p with
  | nil =>
    obtain rfl : Position.start = p := Except.ok.inj h
    exact ⟨rfl, List.nodup_nil⟩
  | append_singleton events e ih =>
    obtain ⟨q, before, stepped⟩ := trail_concat.mp h
    obtain ⟨ids, nodup⟩ := ih before
    obtain ⟨_, _, added, fresh, _⟩ := step_eq_ok stepped
    rw [added, recordsOf_append, List.map_append, ids]
    refine ⟨rfl, List.Nodup.append (ids ▸ nodup) ?_ ?_⟩
    · cases e <;> simp [recordsOf, Event.record?, List.filterMap]
    · intro id old new
      obtain ⟨r, mem, rfl⟩ := List.mem_map.mp new
      have found : e.record? = some r := by
        cases e <;> simp_all [recordsOf, Event.record?]
      exact (fresh r found).1 (ids ▸ old)

theorem trail_effective (h : E.trail s events = .ok p) :
    p.effective = (liveOf events).getLast? ∧
      p.completed = ((liveOf events).filter fun r => r.completion.isSome).getLast? := by
  induction events using List.reverseRecOn generalizing p with
  | nil =>
    obtain rfl : Position.start = p := Except.ok.inj h
    exact ⟨rfl, rfl⟩
  | append_singleton events e ih =>
    obtain ⟨q, before, stepped⟩ := trail_concat.mp h
    obtain ⟨effective, completed⟩ := ih before
    obtain ⟨_, _, _, _, newEffective, newCompleted⟩ := step_eq_ok stepped
    rw [newEffective, newCompleted, effective, completed, liveOf_append, List.filter_append,
      List.getLast?_append, List.getLast?_append]
    cases e with
    | decided r =>
      by_cases done : r.completion.isSome <;> simp [liveOf, Event.live?, Option.filter, done]
    | cancelled r a => exact ⟨rfl, rfl⟩
    | skipped a => exact ⟨rfl, rfl⟩

/-- An abort beside a record is at the record's revision. -/
def Event.Coherent : Event → Prop
  | .cancelled r a => a.abort.abortedRevision = r.request.revision
  | _ => True

theorem Event.Coherent.abort_revision (coherent : e.Coherent) (h : e.abort? = some a) :
    a.abort.abortedRevision = e.revision := by
  cases e with
  | decided r => cases h
  | cancelled r b =>
    cases h
    exact coherent
  | skipped b =>
    cases h
    rfl

theorem Event.record_revision (h : e.record? = some r) : r.request.revision = e.revision := by
  cases e <;> cases h <;> rfl

theorem step_coherent (h : p.step E s e = .ok p') : e.Coherent := by
  cases e with
  | decided r => trivial
  | cancelled r a =>
    simp only [Position.step, Env.decidedAbort, checked_ok] at h
    obtain ⟨_, _, ⟨target, _⟩, _⟩ := h
    exact target.2.2.2.1
  | skipped a => trivial

theorem trail_mem (h : E.trail s events = .ok p) (mem : e ∈ events) :
    ∃ q q' : Position, q.step E s e = .ok q' := by
  induction events using List.reverseRecOn generalizing p with
  | nil => cases mem
  | append_singleton events d ih =>
    obtain ⟨q, before, stepped⟩ := trail_concat.mp h
    rcases List.mem_append.mp mem with mem | mem
    · exact ih before mem
    · exact ⟨q, p, List.mem_singleton.mp mem ▸ stepped⟩

theorem trail_coherent (h : E.trail s events = .ok p) : ∀ e ∈ events, e.Coherent := by
  intro e mem
  obtain ⟨_, _, stepped⟩ := trail_mem h mem
  exact step_coherent stepped

theorem trail_binds (h : E.trail s events = .ok p) (mem : r ∈ recordsOf events) :
    s.BindsRequest r.request := by
  obtain ⟨e, inside, found⟩ := List.mem_filterMap.mp mem
  obtain ⟨q, q', stepped⟩ := trail_mem h inside
  have chained := ((step_eq_ok stepped).2.2.2.1 r found).2
  simp only [JournalScope.chain, checked_ok] at chained
  obtain ⟨binds, _⟩ := chained
  exact binds

theorem merge_skipped {records : List Record} (aborts : List AbortRecord)
    (h : ∀ r ∈ records, a.abort.abortedRevision < r.request.revision) :
    merge records (a :: aborts) = .skipped a :: merge records aborts := by
  cases records with
  | nil => rfl
  | cons r records =>
    have first : a.abort.abortedRevision < r.request.revision := h r (by simp)
    simp [merge, first]

theorem merge_decided (records : List Record) {aborts : List AbortRecord}
    (h : ∀ a ∈ aborts, r.request.revision < a.abort.abortedRevision) :
    merge (r :: records) aborts = .decided r :: merge records aborts := by
  cases aborts with
  | nil => rfl
  | cons a aborts =>
    have first : r.request.revision < a.abort.abortedRevision := h a (by simp)
    simp [merge, meet, first.le.not_gt, first.ne']

theorem merge_cancelled (records : List Record) (aborts : List AbortRecord)
    (h : a.abort.abortedRevision = r.request.revision) :
    merge (r :: records) (a :: aborts) = .cancelled r a :: merge records aborts := by
  simp [merge, meet, h]

theorem merge_of_ascending (coherent : ∀ e ∈ events, e.Coherent)
    (ascending : events.Pairwise fun d e => d.revision < e.revision) :
    merge (recordsOf events) (abortsOf events) = events := by
  induction events with
  | nil => rfl
  | cons e rest ih =>
    rw [List.forall_mem_cons] at coherent
    rw [List.pairwise_cons] at ascending
    have tail := ih coherent.2 ascending.2
    have records : ∀ r ∈ recordsOf rest, e.revision < r.request.revision := by
      intro r mem
      obtain ⟨d, inside, found⟩ := List.mem_filterMap.mp mem
      exact Event.record_revision found ▸ ascending.1 d inside
    have aborts : ∀ a ∈ abortsOf rest, e.revision < a.abort.abortedRevision := by
      intro a mem
      obtain ⟨d, inside, found⟩ := List.mem_filterMap.mp mem
      exact (coherent.2 d inside).abort_revision found ▸ ascending.1 d inside
    cases e with
    | decided r => exact (merge_decided _ aborts).trans (congrArg _ tail)
    | cancelled r a => exact (merge_cancelled _ _ coherent.1).trans (congrArg _ tail)
    | skipped a => exact (merge_skipped _ records).trans (congrArg _ tail)

theorem trail_ascending (h : E.trail s events = .ok p) :
    events.Pairwise fun d e => d.revision < e.revision := by
  rw [← List.pairwise_map (R := (· < ·)), trail_revisions h]
  exact List.pairwise_lt_range'

/-- The two tables determine the events. -/
theorem merge_of_trail (h : E.trail s events = .ok p) :
    merge (recordsOf events) (abortsOf events) = events :=
  merge_of_ascending (trail_coherent h) (trail_ascending h)

theorem step_settled (h : p.step E s e = .ok p') (effective : p.effective = some r) :
    r.completion.isSome := by
  cases e with
  | decided q =>
    simp only [Position.step, JournalScope.chain, checked_ok, effective] at h
    obtain ⟨_, ⟨_, _, _, linked, _⟩, _⟩ := h
    exact linked.1
  | cancelled q a =>
    simp only [Position.step, JournalScope.chain, checked_ok, effective] at h
    obtain ⟨_, ⟨_, _, _, linked, _⟩, _⟩ := h
    exact linked.1
  | skipped a =>
    simp only [Position.step, JournalScope.undecidedAbort, checked_ok, effective] at h
    obtain ⟨⟨_, _, _, settled⟩, _⟩ := h
    exact settled r rfl

theorem trail_open (h : E.trail s events = .ok p) (effective : p.effective = some r)
    (unfinished : r.completion = none) : ∃ front, events = front ++ [.decided r] := by
  cases events using List.reverseRecOn with
  | nil =>
    obtain rfl : Position.start = p := Except.ok.inj h
    cases effective
  | append_singleton events e =>
    obtain ⟨q, before, stepped⟩ := trail_concat.mp h
    refine ⟨events, ?_⟩
    have added := (step_eq_ok stepped).2.2.2.2.1
    have settled : q.effective ≠ some r := by
      intro same
      simpa [unfinished] using step_settled stepped same
    cases e with
    | decided q =>
      obtain rfl : r = q := Option.mem_unique effective added
      rfl
    | cancelled q a => exact absurd (added.symm.trans effective) settled
    | skipped a => exact absurd (added.symm.trans effective) settled

end Trail

end TerrapiVault.Recovery
