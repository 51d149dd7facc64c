import TerrapiVault.Maintenance.Runs
import TerrapiVault.Maintenance.Lineage

/-! Certified maintenance never both rolls back and rolls forward. A certificate stands
on a live record of the journal; that record is completed, or the node is still pending
on it and so cannot be the aborting participant an abort needs. -/
namespace TerrapiVault.Recovery

variable {T : Type → Type} {E : Env T} {events events' : List Event} {p p' : Position}
  {scope : JournalScope} {a : AbortRecord}

/-- A live record survives a call, or the call recorded the abort of its revision. -/
theorem Move.live (moved : Move events events') (trail : E.trail scope events' = .ok p')
    {r : Record} (mem : r ∈ liveOf events) :
    (∃ r' ∈ liveOf events', r'.request = r.request ∧
        (r.completion.isSome → r'.completion.isSome)) ∨
      r.completion = none ∧ ∃ a ∈ abortsOf events', a ∉ abortsOf events ∧
        a.abort.abortedRevision = r.request.revision := by
  cases moved with
  | stay => exact .inl ⟨r, mem, rfl, id⟩
  | decide _ q named => exact .inl ⟨r, mem_liveOf_concat.mpr (.inl mem), rfl, id⟩
  | revise front q q' request unfinished =>
    rcases mem_liveOf_concat.mp mem with old | last
    · exact .inl ⟨r, mem_liveOf_concat.mpr (.inl old), rfl, id⟩
    · obtain rfl := Option.some.inj last
      refine .inl ⟨q', mem_liveOf_concat.mpr (.inr rfl), request, fun complete => ?_⟩
      simp [unfinished] at complete
  | cancel front q a =>
    rcases mem_liveOf_concat.mp mem with old | last
    · exact .inl ⟨r, mem_liveOf_concat.mpr (.inl old), rfl, id⟩
    · obtain rfl := Option.some.inj last
      obtain ⟨before, reached, stepped⟩ := trail_concat.mp trail
      obtain ⟨_, unfinished, revision, _⟩ := cancelled_target stepped
      refine .inr ⟨unfinished, a, mem_abortsOf_concat.mpr (.inr rfl), fun old => ?_, revision⟩
      obtain ⟨d, inside, found⟩ := List.mem_filterMap.mp old
      rcases List.mem_append.mp inside with inside | inside
      · have below : d.revision < q.request.revision := trail_below trail d inside
        have same := (trail_coherent reached d inside).abort_revision found
        omega
      · obtain rfl : d = .decided q := by simpa using inside
        cases found
  | skip _ a => exact .inl ⟨r, mem_liveOf_concat.mpr (.inl mem), rfl, id⟩

theorem Move.aborts (moved : Move events events') (mem : a ∈ abortsOf events) :
    a ∈ abortsOf events' := by
  cases moved with
  | stay => exact mem
  | decide _ _ _ | skip _ _ => exact mem_abortsOf_concat.mpr (.inl mem)
  | revise _ _ _ _ _ | cancel _ _ _ =>
    exact mem_abortsOf_concat.mpr (.inl ((mem_abortsOf_concat.mp mem).resolve_right nofun))

/-- An abort is recorded under a revision that no live record has. -/
theorem abort_not_live (trail : E.trail scope events = .ok p) (aborted : a ∈ abortsOf events)
    {r : Record} (live : r ∈ liveOf events) : a.abort.abortedRevision ≠ r.request.revision := by
  intro same
  obtain ⟨d, inside, found⟩ := List.mem_filterMap.mp aborted
  obtain ⟨e, inside', found'⟩ := List.mem_filterMap.mp live
  have revision := (trail_coherent trail d inside).abort_revision found
  cases e with
  | decided q =>
    cases found'
    obtain rfl : d = .decided r := revision_injective trail inside inside' (revision ▸ same)
    cases found
  | cancelled q b => cases found'
  | skipped b => cases found'

theorem fetchCompleted_completed {j : Journal T} {trust : Trust} {request : Request} {policy : Policy}
    {c : CompletedTransition} (layout : j.Layout E events p)
    (h : j.fetchCompleted E request trust policy = .ok c) :
    ∃ r ∈ liveOf events, r.request = request ∧ r.completion.isSome := by
  simp only [Journal.fetchCompleted, Journal.fetch, Env.committed, run_ok, require_eq_ok] at h
  obtain ⟨_, ⟨history, read, _, _, _, r, head, same, _, _, _, rfl⟩, _, id, completed, _⟩ := h
  obtain ⟨_, rfl⟩ := layout.read read
  exact ⟨r, effective_mem_liveOf layout.trail head, Replication.ensure_eq_ok.mp same,
    Option.isSome_of_eq_some completed⟩

theorem Journal.abort_added {j j' : Journal T} {trust : Trust} {abort : MaintenanceAbort}
    {token : String} {now : ℕ} {policy : Policy} (positive : 0 < j.scope.initialRevision)
    (layout : j.Layout E events p) (layout' : j'.Layout E events' p')
    (ran : (JournalCall.abort abort token now policy).run E trust j = .ok j')
    (added : a ∈ abortsOf events') (new : a ∉ abortsOf events) :
    a.abort = abort ∧ a.token = token ∧ policy.abortApplicable j.scope abort = .ok () := by
  obtain ⟨⟨next, c⟩, aborted, same⟩ := bind_eq_ok.mp ran
  obtain rfl : next = j' := Except.ok.inj same
  obtain ⟨_, _, _, _, _, ⟨rfl, _⟩ | ⟨_, fresh⟩⟩ := Journal.abort_effect layout aborted
  · obtain ⟨rfl, rfl⟩ := layout.unique layout'
    exact absurd added new
  · obtain ⟨_, _, _, _, _, _, _, _, _, applicable, _, _, _, aborts, _, _, made⟩ :=
      Journal.abortNew_effect layout positive fresh
    obtain ⟨rfl, _⟩ := made.unique layout'
    rw [aborts] at added
    obtain rfl := List.mem_singleton.mp ((List.mem_append.mp added).resolve_left new)
    exact ⟨rfl, rfl, applicable⟩

theorem initial_le_abort (trail : E.trail scope events = .ok p) (aborted : a ∈ abortsOf events) :
    scope.initialRevision ≤ a.abort.abortedRevision := by
  obtain ⟨d, inside, found⟩ := List.mem_filterMap.mp aborted
  rw [(trail_coherent trail d inside).abort_revision found]
  have listed : d.revision ∈ List.range' scope.initialRevision events.length :=
    trail_revisions trail ▸ List.mem_map_of_mem inside
  exact (List.mem_range'_1.mp listed).1

end TerrapiVault.Recovery

namespace TerrapiVault.Maintenance

open Recovery

variable {T : Type → Type} {E : Env T} {F C V : Type} {host : Host F C V} {trust : Trust}
  {events events' : List Event} {p p' : Position} {s s' : Site T F C V}

/-- The abort document is one of this request. -/
abbrev Names (E : Env T) (abort : MaintenanceAbort) (q : Request) : Prop :=
  abort.abortedRequest = E.digest q ∧ abort.abortedRequestId = q.id ∧
    abort.abortedRevision = q.revision

/-- The journal has recorded an abort of the request. -/
def Aborted (E : Env T) (j : Journal T) (q : Request) : Prop :=
  ∃ a ∈ j.abortRecords E, Names E a.abort q

/-- The node has cut its log for the request: it is pending in a later phase, or holds
the certificate. -/
def Node.Applied (n : Node F C V) (q : Request) : Prop :=
  q ∈ n.certified ∨ ∃ r, n.progress = some r ∧ r.phase.pruned = true ∧ r.request = q

variable {h : Handle} {q : Request} {i : Fin 2}

/-- A certificate is never taken back, and a cut log never grows again. -/
theorem Turn.applied {j : Journal T} {n n' : Node F C V} {h' : Handle} {kind : Kind}
    (turned : Turn E host trust j n h kind n' h')
    (pending : ∀ r, n.progress = some r → r.phase.pruned = true → r.request ∈ n.certified)
    (applied : n.Applied q) : n'.Applied q := by
  have certified : q ∈ n.certified := by
    rcases applied with certified | ⟨r, found, pruned, rfl⟩
    · exact certified
    · exact pending r found pruned
  cases turned with
  | apply policy c fetched retained phase segments made next row =>
    exact .inl ((Node.certify_certificates made q).mpr (.inl certified))
  | _ => exact .inl certified

/-- The row, the handle and the certificates of a node agree with the journal; `older` are
the certificates from before it. -/
structure Node.Coherent (older : List Request) (events : List Event) (n : Node F C V)
    (handle : Option Handle) : Prop where
  rows : n.marker = none → n.progress = none
  cached : ∀ h, handle = some h → n.progress = if h.finalized then none else some h.prepared
  applied : ∀ r, n.progress = some r → r.phase.pruned = true → r.request ∈ n.certified
  bound : ∀ r, n.progress = some r → ∀ b ∈ r.abort, b.abortedRevision = r.request.revision
  live : ∀ q ∈ n.certified, q ∈ older ∨ ∃ r ∈ liveOf events, r.request = q ∧
    (r.completion.isSome ∨ ∃ row, n.progress = some row ∧ row.phase.pruned = true ∧ row.request = q)

structure Site.Coherent (E : Env T) (older : Fin 2 → List Request) (s : Site T F C V)
    (events : List Event) (p : Position) : Prop where
  layout : s.journal.Layout E events p
  positive : 0 < s.journal.scope.initialRevision
  early : ∀ i, ∀ q ∈ older i, q.revision < s.journal.scope.initialRevision
  node : ∀ i, (s.node i).Coherent (older i) events (s.handle i)

theorem Node.Coherent.of_empty {older : List Request} {n : Node F C V} {handle : Option Handle}
    (empty : n.progress = none) (closed : ∀ h, handle = some h → h.finalized = true)
    (done : ∀ q ∈ n.certified, q ∈ older ∨
      ∃ r ∈ liveOf events, r.request = q ∧ r.completion.isSome) :
    n.Coherent older events handle where
  rows _ := empty
  cached h held := by simp [closed h held, empty]
  applied r found := by simp [empty] at found
  bound r found := by simp [empty] at found
  live q mem := by
    rcases done q mem with older | ⟨r, live, same, completed⟩
    · exact .inl older
    · exact .inr ⟨r, live, same, .inl completed⟩

namespace Site

theorem Start.no_row {scope : JournalScope} (start : s.Start E scope) {r : Prepared}
    (found : (s.node i).progress = some r) : False := by
  rw [(start.idle i).2] at found
  cases found

theorem Start.no_handle {scope : JournalScope} (start : s.Start E scope)
    (held : s.handle i = some h) : False := by
  rw [start.closed i] at held
  cases held

theorem Start.coherent {scope : JournalScope} (start : s.Start E scope) :
    s.Coherent E (fun i => (s.node i).certified) [] .start where
  layout := (Journal.create_layout start.created).2.2
  positive := by
    obtain ⟨same, positive, _⟩ := Journal.create_layout start.created
    rw [same]
    exact positive
  early := by
    rw [(Journal.create_layout start.created).1]
    exact start.older
  node i := by
    exact .of_empty (start.idle i).2 (fun h held => (start.no_handle held).elim)
      fun _ mem => .inl mem

namespace Coherent

variable {older : Fin 2 → List Request} (coherent : s.Coherent E older events p)
include coherent

theorem certified_of_applied {i : Fin 2} (applied : (s.node i).Applied q) :
    q ∈ (s.node i).certified := by
  rcases applied with certified | ⟨r, found, pruned, rfl⟩
  · exact certified
  · exact (coherent.node i).applied r found pruned

/-- A recorded abort and an applied node exclude each other. -/
theorem exclusive (aborted : Aborted E s.journal q) (i : Fin 2) : ¬(s.node i).Applied q := by
  intro applied
  have certified := coherent.certified_of_applied applied
  obtain ⟨a, mem, _, _, revision⟩ := aborted
  rw [coherent.layout.abortRecords_eq] at mem
  rcases (coherent.node i).live q certified with old | ⟨r, live, rfl, _⟩
  · have initial := initial_le_abort coherent.layout.trail mem
    have early := coherent.early i q old
    omega
  · exact abort_not_live coherent.layout.trail mem live revision

/-- A certificate of a node that is not pending in a later phase is completed. -/
theorem completed_of_unpruned (mem : q ∈ (s.node i).certified)
    (unpruned : ∀ row, (s.node i).progress = some row → row.phase.pruned = false) :
    q ∈ older i ∨ ∃ r ∈ liveOf events, r.request = q ∧ r.completion.isSome := by
  rcases (coherent.node i).live q mem with old | ⟨r, live, same, completed | ⟨row, found, pruned, _⟩⟩
  · exact .inl old
  · exact .inr ⟨r, live, same, completed⟩
  · rw [unpruned row found] at pruned
    cases pruned

omit coherent in
theorem unpruned {r : Prepared} (found : (s.node i).progress = some r)
    (early : r.phase.pruned = false) (row : Prepared) (there : (s.node i).progress = some row) :
    row.phase.pruned = false :=
  Option.mem_unique found there ▸ early

theorem handle_row (held : s.handle i = some h) {r : Prepared}
    (found : (s.node i).progress = some r) : h.finalized = false ∧ h.prepared = r := by
  have row := (coherent.node i).cached h held
  rw [found] at row
  split_ifs at row with finalized
  exact ⟨by simpa using finalized, (Option.some.inj row).symm⟩

/-- The pending row is rewritten within the phases before or after the cut. -/
theorem rewrite {next : Prepared} (held : s.handle i = some h)
    (retained : (s.node i).validateRetained E host h trust = .ok ())
    (request : next.request = h.prepared.request)
    (pruned : next.phase.pruned = h.prepared.phase.pruned)
    (bound : ∀ b ∈ next.abort, b ∈ h.prepared.abort ∨ b.abortedRevision = next.request.revision) :
    ({ s.node i with progress := some next } : Node F C V).Coherent (older i) events
      (some { h with prepared := next }) := by
  have found := (Node.validateRetained_eq_ok retained).1
  have own := coherent.node i
  refine ⟨fun absent => ?_, fun h' same => ?_, fun r same late => ?_, fun r same b mem => ?_,
    fun q mem => ?_⟩
  · rw [own.rows absent] at found
    cases found
  · obtain rfl := Option.some.inj same
    simp [coherent.handle_row held found]
  · obtain rfl := Option.some.inj same
    rw [request]
    exact own.applied h.prepared found (pruned ▸ late)
  · obtain rfl := Option.some.inj same
    rcases bound b mem with old | new
    · rw [request]
      exact own.bound h.prepared found b old
    · exact new
  · rcases own.live q mem with old | ⟨r, live, same, completed | ⟨row, there, late, named⟩⟩
    · exact .inl old
    · exact .inr ⟨r, live, same, .inl completed⟩
    · obtain rfl := Option.mem_unique found there
      exact .inr ⟨r, live, same, .inr ⟨next, rfl, pruned ▸ late, request.trans named⟩⟩

theorem turn {h' : Handle} {kind : Kind} {n' : Node F C V} (held : s.handle i = some h)
    (turned : Turn E host trust s.journal (s.node i) h kind n' h') :
    n'.Coherent (older i) events (some h') := by
  have own := coherent.node i
  cases turned with
  | again => exact held ▸ own
  | decide policy c fetched retained phase next row | complete policy c fetched retained phase next row =>
    exact coherent.rewrite held retained (row ▸ rfl) (by rw [row, phase]; rfl)
      fun b mem => .inl (by rwa [row] at mem)
  | abort document token binds retained phase decided next row =>
    refine coherent.rewrite held retained (row ▸ rfl) ?_ fun b mem => .inr ?_
    · rcases phase with phase | phase <;> rw [row, phase] <;> rfl
    · rw [row] at mem ⊢
      obtain rfl := Option.some.inj mem
      exact binds.2.2.1
  | apply policy c fetched retained phase segments certified next row =>
    have found := (Node.validateRetained_eq_ok retained).1
    have mine : next.request = h.prepared.request := row ▸ rfl
    have members := Node.certify_certificates certified
    refine ⟨fun absent => ?_, fun h' same => ?_, fun r same _ => ?_, fun r same b mem => ?_,
      fun q mem => ?_⟩
    · rw [own.rows absent] at found
      cases found
    · obtain rfl := Option.some.inj same
      simp [Node.cutTo, coherent.handle_row held found]
    · obtain rfl := Option.some.inj same
      exact (members _).mpr (.inr mine)
    · obtain rfl := Option.some.inj same
      rw [mine]
      exact own.bound h.prepared found b (by rwa [row] at mem)
    · rcases (members q).mp mem with old | rfl
      · rcases coherent.completed_of_unpruned old (unpruned found (phase ▸ rfl)) with
          old | ⟨r, live, same, completed⟩
        · exact .inl old
        · exact .inr ⟨r, live, same, .inl completed⟩
      · obtain ⟨r, live, same⟩ := fetch_live coherent.layout fetched
        exact .inr ⟨r, live, same, .inr ⟨next, rfl, by rw [row]; rfl, mine⟩⟩
  | finalize policy c fetched retained phase runtime readiness completion =>
    have found := (Node.validateRetained_eq_ok retained).1
    refine .of_empty rfl (by simp) fun q mem => ?_
    rcases own.live q mem with old | ⟨r, live, same, completed | ⟨row, there, _, named⟩⟩
    · exact .inl old
    · exact .inr ⟨r, live, same, completed⟩
    · obtain rfl := Option.mem_unique found there
      obtain ⟨r', live', same', completed⟩ := fetchCompleted_completed coherent.layout fetched
      exact .inr ⟨r', live', same'.trans named, completed⟩
  | restore policy c fetched retained phase proof digest runtime =>
    have found := (Node.validateRetained_eq_ok retained).1
    exact .of_empty rfl (by simp) fun q mem =>
      coherent.completed_of_unpruned mem (unpruned found (phase ▸ rfl))

theorem seen (view : View E host trust s s' call i) :
    (s'.node i).Coherent (older i) events (s'.handle i) := by
  have own := coherent.node i
  have done (idle : (s.node i).marker = none) : ∀ q ∈ (s.node i).certified,
      q ∈ older i ∨ ∃ r ∈ liveOf events, r.request = q ∧ r.completion.isSome := fun q mem =>
    coherent.completed_of_unpruned mem (by simp [own.rows idle])
  cases view with
  | same node handle =>
    rw [node]
    refine { own with cached := fun h held => ?_ }
    rcases handle h held with old | ⟨found, live, _⟩
    · exact own.cached h old
    · simp [live, found]
  | prepare opened r fresh now writes named closed absent checked paired node =>
    rw [node, closed]
    refine ⟨by simp [Node.prepared], by simp, fun row found late => ?_, fun row found b mem => ?_,
      fun q mem => ?_⟩
    · obtain rfl := Option.some.inj found
      rw [fresh] at late
      cases late
    · obtain rfl := Option.some.inj found
      rw [fresh] at mem
      cases mem
    · rcases done absent q mem with old | ⟨r, live, same, completed⟩
      · exact .inl old
      · exact .inr ⟨r, live, same, .inl completed⟩
  | turn h held c made kind named n' h' turned node handle =>
    rw [node, handle]
    exact coherent.turn held turned
  | serve closed idle serves =>
    rw [closed]
    refine .of_empty serves.progress (by simp) fun q mem => done idle q ?_
    rwa [Node.certified, serves.certificates] at mem

theorem journal {c : JournalCall} {j : Journal T} (ran : c.run E trust s.journal = .ok j)
    (guarded : s.Guards E host trust c) :
    ∃ events' p', ({ s with journal := j } : Site T F C V).Coherent E older events' p' ∧
      ∀ a ∈ abortsOf events, a ∈ abortsOf events' := by
  obtain ⟨events', p', layout, moved, scope, own⟩ :=
    c.run_moves coherent.positive coherent.layout ran
  refine ⟨events', p', ⟨layout, scope ▸ coherent.positive, scope ▸ coherent.early, fun i =>
    { coherent.node i with live := fun q mem => ?_ }⟩, fun a => moved.aborts⟩
  rcases (coherent.node i).live q mem with old | ⟨r, live, same, evidence⟩
  · exact .inl old
  rcases moved.live layout.trail live with ⟨r', live', kept, completed⟩ | ⟨unfinished, a, added, new, _⟩
  · refine .inr ⟨r', live', kept.trans same, ?_⟩
    rcases evidence with done | pending
    · exact .inl (completed done)
    · exact .inr pending
  · obtain ⟨token, now, policy, rfl⟩ := (own a added).resolve_left new
    obtain ⟨h, h', held, held', _, aborting⟩ := guarded
    obtain ⟨_, _, applicable⟩ :=
      Journal.abort_added coherent.positive coherent.layout layout ran added new
    obtain ⟨primary, secondary⟩ := aborting _ applicable
    have busy : ∀ k, ∃ row, (s.node k).progress = some row ∧ row.phase = .aborting :=
      Fin.forall_fin_two.mpr ⟨Node.isAborting_row primary, Node.isAborting_row secondary⟩
    obtain ⟨row, found, phase⟩ := busy i
    rcases evidence with done | ⟨row', found', pruned, _⟩
    · simp [unfinished] at done
    · obtain rfl := Option.mem_unique found found'
      rw [phase] at pruned
      cases pruned

theorem step (stepped : Step E host s s') :
    ∃ events' p', s'.Coherent E older events' p' ∧ ∀ a ∈ abortsOf events, a ∈ abortsOf events' := by
  obtain ⟨trust, allowed⟩ := stepped
  rcases allowed.view with ⟨call, _, journal, view⟩ | ⟨_, c, j, _, ran, guarded, _, rfl⟩
  · exact ⟨events, p, ⟨journal ▸ coherent.layout, journal ▸ coherent.positive,
      journal ▸ coherent.early, fun i => coherent.seen (view i)⟩, fun _ mem => mem⟩
  · exact coherent.journal ran guarded

end Coherent

/-- What holds at the start and is kept by the steps of a run holds after it. -/
theorem Start.invariant {scope : JournalScope} {start : Site T F C V}
    {R : Site T F C V → Site T F C V → Prop} {I : Site T F C V → List Event → Prop}
    (begun : start.Start E scope) (steps : ∀ {s s'}, R s s' → Step E host s s') (init : I start [])
    (keeps : ∀ {s s' events events' p p'}, s.Coherent E (fun i => (start.node i).certified) events p →
      s'.Coherent E (fun i => (start.node i).certified) events' p' → I s events → R s s' →
      I s' events') (run : Relation.ReflTransGen R start s) :
    ∃ events p, s.Coherent E (fun i => (start.node i).certified) events p ∧ I s events := by
  induction run with
  | refl => exact ⟨[], .start, begun.coherent, init⟩
  | tail _ stepped ih =>
    obtain ⟨events, p, coherent, holds⟩ := ih
    obtain ⟨events', p', coherent', _⟩ := coherent.step (steps stepped)
    exact ⟨events', p', coherent', keeps coherent coherent' holds stepped⟩

variable {older : Fin 2 → List Request} (coherent : s.Coherent E older events p)
include coherent

theorem Step.applied (stepped : Step E host s s') (applied : (s.node i).Applied q) :
    (s'.node i).Applied q := by
  have certified := coherent.certified_of_applied applied
  obtain ⟨trust, allowed⟩ := stepped
  rcases allowed.view with ⟨call, _, _, view⟩ | ⟨_, _, _, _, _, _, _, rfl⟩
  · cases view i with
    | same node => exact node ▸ applied
    | prepare _ _ _ _ _ _ _ _ _ _ node => exact node ▸ .inl certified
    | turn _ _ _ _ _ _ _ _ turned node => exact node ▸ turned.applied (coherent.node i).applied applied
    | serve _ _ serves =>
      left
      rwa [Node.certified, serves.certificates]
  · exact applied

/-- The sites a run leaves. -/
def Later (E : Env T) (host : Host F C V) : Site T F C V → Site T F C V → Prop :=
  Relation.ReflTransGen (Step E host)

theorem Coherent.later (run : Later E host s s') :
    ∃ events' p', s'.Coherent E older events' p' ∧ (∀ a ∈ abortsOf events, a ∈ abortsOf events') ∧
      ∀ i q, (s.node i).Applied q → (s'.node i).Applied q := by
  induction run with
  | refl => exact ⟨events, p, coherent, fun _ mem => mem, fun _ _ applied => applied⟩
  | tail _ stepped ih =>
    obtain ⟨_, _, reached, aborts, applied⟩ := ih
    obtain ⟨events', p', coherent', more⟩ := reached.step stepped
    exact ⟨events', p', coherent', fun a mem => more a (aborts a mem),
      fun i q old => stepped.applied reached (applied i q old)⟩

theorem Coherent.aborted_later (run : Later E host s s') (aborted : Aborted E s.journal q) :
    Aborted E s'.journal q ∧ ∀ i, ¬(s'.node i).Applied q := by
  obtain ⟨events', p', coherent', aborts, _⟩ := coherent.later run
  obtain ⟨a, mem, names⟩ := aborted
  rw [coherent.layout.abortRecords_eq] at mem
  have kept : Aborted E s'.journal q := by
    refine ⟨a, ?_, names⟩
    rw [coherent'.layout.abortRecords_eq]
    exact aborts a mem
  exact ⟨kept, coherent'.exclusive kept⟩

theorem Coherent.aborted_of_fetch {policy : Policy} {c : CommittedMaintenanceAbort}
    (fetched : s.journal.fetchAbort E q trust policy = .ok c)
    (revision : c.abort.abortedRevision = q.revision) : Aborted E s.journal q := by
  simp only [Journal.fetchAbort, Env.committedAbort, run_ok, require_eq_ok,
    Env.documentDigest_eq_ok] at fetched
  obtain ⟨_, ⟨_, rfl⟩, history, read, a, first, _, _, _, _, rfl⟩ := fetched
  obtain ⟨_, rfl⟩ := coherent.layout.read read
  have named := List.find?_some first
  simp only [decide_eq_true_eq] at named
  refine ⟨a, ?_, named.1, named.2, revision⟩
  rw [coherent.layout.abortRecords_eq]
  exact List.mem_of_find?_eq_some first

theorem Coherent.aborted_of_finish {policy : ℕ → Policy} {after : Node F C V × Handle}
    (held : s.handle i = some h) (live : h.finalized = false)
    (finished : (s.node i).finishAbort E host h s.journal trust policy = .ok after) :
    Aborted E s.journal h.prepared.request := by
  rw [Node.finishAbort, if_neg (by simp [live])] at finished
  simp only [checked_ok, require_eq_ok] at finished
  obtain ⟨bound, found, _, _, c, fetched, proof, _⟩ := finished
  have row := (coherent.node i).cached h held
  rw [live] at row
  exact coherent.aborted_of_fetch fetched
    (proof.2.2.1.trans ((coherent.node i).bound h.prepared row bound found))

end Site

open Site

/-- An aborted request is never applied, an applied one never aborted, and no node keeps
the certificate of a request that another was restored from. -/
theorem rolls_one_way {scope : JournalScope} {start : Site T F C V} (begun : start.Start E scope)
    (run : Later E host start s) :
    (∀ q, Aborted E s.journal q → ∀ s', Later E host s s' → ∀ i, ¬(s'.node i).Applied q) ∧
    (∀ q i, (s.node i).Applied q → ∀ s', Later E host s s' → ¬Aborted E s'.journal q) ∧
    ∀ trust i policy h s', s.handle i = some h → h.finalized = false →
      (Call.finishAbort i policy).run E host trust s = .ok s' →
      ∀ s'', Later E host s' s'' → ∀ k, h.prepared.request ∉ (s''.node k).certified := by
  obtain ⟨events, p, coherent, _⟩ := begun.coherent.later run
  refine ⟨fun q aborted s' later i => (coherent.aborted_later later aborted).2 i, ?_, ?_⟩
  · intro q i applied s' later aborted
    obtain ⟨events', p', coherent', _, kept⟩ := coherent.later later
    exact coherent'.exclusive aborted i (kept i q applied)
  · intro trust i policy h s' held live ran s'' later k certified
    have aborted : Aborted E s.journal h.prepared.request := by
      simp only [Call.run, bind_eq_ok, opened_eq_ok, held, Option.some.injEq] at ran
      obtain ⟨_, rfl, after, finished, _⟩ := ran
      exact coherent.aborted_of_finish held live finished
    have whole : Later E host s s'' := .head ⟨trust, .inl ⟨_, trivial, ran⟩⟩ later
    exact (coherent.aborted_later whole aborted).2 k (.inl certified)

/-! A recovered pair with one write each, ready for its first certified compaction.
Token `n + 8` carries the document of token `n` under another digest. -/
namespace Sample

open Replication
open Recovery.Sample

def siteEnv : Env fun α => α := carrying fun d n => body d (n % 8)

def active (role : Role) : Active := ⟨mark (side role + 1), mark (side role + 1), mark 1, stateAt 0⟩

def siteHost {F : Type} : Host F Unit Unit where
  schema := schema
  contract := contract
  initial := "initial"
  verifySchema _ _ := .ok ()
  verifyFormats _ := .ok ()
  verifyCapacity _ _ := .ok ()
  verifyAccounting _ _ := .ok ()
  verifyHistory _ _ := .ok ()
  verifyLegacy _ _ _ _ _ _ := .ok ()
  active _ _ role := .ok (some (active role))
  verifyPages _ _ := .ok ()
  noLossRecovery _ := .ok ()
  ordinary _ _ _ := .ok ()
  terminated _ _ := .ok ()

def entry : Entry Unit SchemaId String :=
  ⟨⟨identity, "write", []⟩, 1, zeros, zeros, [], zeros, .applied⟩

/-- The candidate starts on the recovery anchor, the survivor keeps its whole log. -/
def store (role : Role) : Store Unit Unit SchemaId String where
  data := ()
  log := [entry]
  receipts := [⟨1, zeros, 1, ⟨"write", 1⟩⟩]
  base := if role = .primary then some (stateAt 0) else none
  readiness := some (stateAt 1)
  generation := mark (side role + 1)
  revision := zeroId

def node (role : Role) : Node Unit Unit Unit where
  role := role
  identity := identity
  runtime := 3
  initial := "initial"
  store := store role
  segments := ⟨1, none, none, none, none⟩
  publication := some (manifest 1)
  pins := 0
  marker := none
  progress := none
  files := ()

def nodePlan (n : ℕ) (role : Role) : CompactionPlan := { compactionPlan n role with
  head := { head n role with readGeneration := mark (side role + 1) }
  coveredJournalBytes := 1
  coveredJournalEntries := 1 }

def sitePlan (n : ℕ) : PairPlan := ⟨mark 1, nodePlan n .primary, nodePlan n .secondary⟩

abbrev UnitSite : Type := Site (fun α => α) Unit Unit Unit

def site : UnitSite :=
  ⟨created, fun i => node (if i = 0 then .primary else .secondary), fun _ => none⟩

def asks (_ : ℕ) : Policy := policy

def prepareBoth : Call :=
  .preparePair (fun _ => ⟨none, none⟩) (sitePlan 1) (request 1) (token .transition 1) 0 2

def openNode (i : Fin 2) : Call := .openExisting i identity (request 1) none

def proceed (calls : List Call) (s : UnitSite) :
    Result (UnitSite) :=
  calls.foldlM (fun s (c : Call) => c.run siteEnv siteHost trusted s) s

/-- The site after calls that are accepted. -/
def reach (calls : List Call) : UnitSite :=
  (proceed calls site).toOption.getD site

def opening : List Call := [prepareBoth, openNode 0, openNode 1]

theorem exists_of_any {α : Type} {x : Result α} {p : α → Bool} (passes : x.toOption.any p = true) :
    ∃ a, x = .ok a ∧ p a = true := by
  cases x with
  | error e => cases passes
  | ok a => exact ⟨a, rfl, passes⟩

def refusal {α : Type} : Result α → Option Fault
  | .ok _ => none
  | .error e => some e

theorem eq_error_of_refusal {α : Type} {x : Result α} {e : Fault} (refused : refusal x = some e) :
    x = .error e := by
  cases x with
  | ok a => cases refused
  | error e' => exact congrArg _ (Option.some.inj refused)

theorem proceed_allowed {meets : UnitSite → Call → Prop}
    {calls : List Call} (always : ∀ c ∈ calls, ∀ s, meets s c)
    {s s' : UnitSite} (accepted : proceed calls s = .ok s') :
    Relation.ReflTransGen (Allowed siteEnv siteHost trusted meets) s s' := by
  induction calls generalizing s with
  | nil =>
    obtain rfl := Except.ok.inj accepted
    exact .refl
  | cons c calls ih =>
    rw [proceed, List.foldlM_cons, bind_eq_ok] at accepted
    obtain ⟨middle, ran, rest⟩ := accepted
    exact .head (.inl ⟨c, always c List.mem_cons_self s, ran⟩)
      (ih (fun c mem => always c (List.mem_cons_of_mem _ mem)) rest)

theorem proceed_later {calls : List Call} {s s' : UnitSite}
    (accepted : proceed calls s = .ok s') : Later siteEnv siteHost s s' := by
  have allowed := proceed_allowed (fun _ _ _ => trivial) accepted
  exact Relation.ReflTransGen.mono (fun _ _ step => ⟨trusted, step⟩) _ _ allowed

theorem reach_later {calls : List Call} (accepted : (proceed calls site).toOption.isSome) :
    Later siteEnv siteHost site (reach calls) := by
  apply @proceed_later calls
  unfold reach
  match run : proceed calls site with
  | .ok s => rfl
  | .error e =>
    rw [run] at accepted
    cases accepted

theorem site_start : site.Start siteEnv Recovery.Sample.scope where
  created := Recovery.Sample.create_created
  idle _ := ⟨rfl, rfl⟩
  closed _ := rfl
  older _ _ mem := nomatch mem

def abortBoth (first second recorded : ℕ) : List Call :=
  opening ++ [.beginAbort 0 (cancellation 1) (token .abort first) 0,
    .beginAbort 1 (cancellation 1) (token .abort second) 0,
    .abortAuthority (cancellation 1) (token .abort recorded) 0 asks]

/-- Both nodes are bound to one abort and the journal has recorded it. -/
theorem rolls_one_way_aborted :
    Aborted siteEnv (reach (abortBoth 1 1 1)).journal (request 1) ∧
    (∀ q, Aborted siteEnv (reach (abortBoth 1 1 1)).journal q →
      ∀ s', Later siteEnv siteHost (reach (abortBoth 1 1 1)) s' → ∀ i, ¬(s'.node i).Applied q) ∧
    (∀ q i, ((reach (abortBoth 1 1 1)).node i).Applied q →
      ∀ s', Later siteEnv siteHost (reach (abortBoth 1 1 1)) s' → ¬Aborted siteEnv s'.journal q) ∧
    ∀ trust i policy h s', (reach (abortBoth 1 1 1)).handle i = some h → h.finalized = false →
      (Call.finishAbort i policy).run siteEnv siteHost trust (reach (abortBoth 1 1 1)) = .ok s' →
      ∀ s'', Later siteEnv siteHost s' s'' → ∀ k, h.prepared.request ∉ (s''.node k).certified := by
  refine ⟨?_, rolls_one_way site_start (reach_later (by decide +kernel))⟩
  unfold Aborted
  decide +kernel

end Sample

end TerrapiVault.Maintenance
