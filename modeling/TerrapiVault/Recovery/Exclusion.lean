import TerrapiVault.Recovery.JournalRuns

/-! Runs of one journal from its creation, under any trust at each call. The events
of a run form a gapless revision range, and a request that an abort names is never
live beside it as long as no abort of an undecided request names a live one. -/
namespace TerrapiVault.Recovery

variable {T : Type → Type}

/-- The decided records that no abort took. -/
def Journal.live (E : Env T) (j : Journal T) : List Record :=
  (j.records E).filter fun r =>
    ∀ a ∈ j.abortRecords E, a.abort.abortedRevision ≠ r.request.revision

/-- An abort of a request said to be undecided names none of the picked live records. -/
def JournalCall.SparesOf (E : Env T) (pick : List Record → List Record) (j : Journal T) :
    JournalCall → Prop
  | .abort cancellation _ _ _ => cancellation.decided = false →
      ∀ r ∈ pick (j.live E), cancellation.abortedRequestId ≠ r.request.id
  | _ => True

abbrev JournalCall.Spares (E : Env T) (j : Journal T) (c : JournalCall) : Prop := c.SparesOf E id j

/-- The effective record alone is spared. -/
abbrev JournalCall.SparesHead (E : Env T) (j : Journal T) (c : JournalCall) : Prop :=
  c.SparesOf E (·.getLast?.toList) j

/-- What one call does to the events. -/
inductive Move : List Event → List Event → Prop
  | stay (events : List Event) : Move events events
  | decide (events : List Event) (r : Record)
    (named : ∀ a ∈ abortsOf events, a.abort.abortedRequestId ≠ r.request.id) :
    Move events (events ++ [.decided r])
  | revise (front : List Event) (r r' : Record) (request : r'.request = r.request)
    (unfinished : r.completion = none) : Move (front ++ [.decided r]) (front ++ [.decided r'])
  | cancel (front : List Event) (r : Record) (a : AbortRecord) :
    Move (front ++ [.decided r]) (front ++ [.cancelled r a])
  | skip (events : List Event) (a : AbortRecord) : Move events (events ++ [.skipped a])

variable {E : Env T} {trust : Trust} {events events' front : List Event} {e : Event}
  {p p' : Position} {j j' : Journal T} {s : JournalScope}

theorem revision_injective {d : Event} (h : E.trail s events = .ok p) (mem : d ∈ events)
    (mem' : e ∈ events) (same : d.revision = e.revision) : d = e := by
  have distinct : (events.map Event.revision).Nodup := by
    rw [trail_revisions h]
    exact List.nodup_range'
  exact List.inj_on_of_nodup_map distinct mem mem' same

theorem liveOf_eq_filter (h : E.trail s events = .ok p) :
    (recordsOf events).filter (fun r =>
      ∀ a ∈ abortsOf events, a.abort.abortedRevision ≠ r.request.revision) = liveOf events := by
  rw [recordsOf, List.filter_filterMap, liveOf]
  refine List.filterMap_congr fun e mem => ?_
  cases e with
  | decided r =>
    refine Option.filter_eq_some_iff.mpr ⟨rfl, decide_eq_true fun a inside same => ?_⟩
    obtain ⟨d, member, found⟩ := List.mem_filterMap.mp inside
    have equal := revision_injective h member mem
      (((trail_coherent h d member).abort_revision found).symm.trans same)
    rw [equal] at found
    cases found
  | cancelled r a =>
    refine Option.filter_eq_none_iff.mpr fun q found => ?_
    cases found
    refine fun none => of_decide_eq_true none a ?_ ?_
    · exact List.mem_filterMap.mpr ⟨_, mem, rfl⟩
    · exact trail_coherent h _ mem
  | skipped a => rfl

theorem Journal.Layout.live_eq (layout : j.Layout E events p) : j.live E = liveOf events := by
  rw [live, layout.records_eq, layout.abortRecords_eq]
  exact liveOf_eq_filter layout.trail

variable {a : AbortRecord} {c : JournalCall} {r : Record}

theorem Cancels.move (h : Cancels a events events') : Move events events' := by
  cases h with
  | decided front r => exact .cancel front r a
  | undecided => exact .skip events a

theorem replace_moves {r' : Record} (layout : j.Layout E (front ++ [.decided r]) p)
    (h : j.replace E r' = .ok j') (request : r'.request = r.request)
    (unfinished : r.completion = none) :
    ∃ events' p', j'.Layout E events' p' ∧ Move (front ++ [.decided r]) events' ∧
      j'.scope = j.scope ∧ ∀ a ∈ abortsOf events', a ∈ abortsOf (front ++ [.decided r]) ∨
        ∃ token now policy, c = .abort a.abort token now policy := by
  obtain ⟨p', trail⟩ := trail_revise request layout.trail
  obtain ⟨_, rows, row, _, _, rfl, layout'⟩ :=
    Journal.replace_layout layout (congrArg (·.revision) request) trail h
  refine ⟨_, p', layout', .revise front r r' request unfinished, rfl, fun a mem => .inl ?_⟩
  simpa [abortsOf_singleton, Event.abort?] using mem

/-- Every call is one move; a row it adds to the abort table is its own argument. -/
theorem JournalCall.run_moves (positive : 0 < j.scope.initialRevision)
    (layout : j.Layout E events p) (h : c.run E trust j = .ok j') :
    ∃ events' p', j'.Layout E events' p' ∧ Move events events' ∧ j'.scope = j.scope ∧
      ∀ a ∈ abortsOf events', a ∈ abortsOf events ∨
        ∃ token now policy, c = .abort a.abort token now policy := by
  cases c with
  | decide request token now policy =>
    obtain ⟨c, decided⟩ := fst_eq_ok.mp h
    obtain ⟨_, _, ⟨rfl, _⟩ | new⟩ := Journal.decide_effect layout decided
    · exact ⟨events, p, layout, .stay events, rfl, fun a => .inl⟩
    · obtain ⟨named, _, _, _, rfl, p', layout'⟩ := Journal.decideNew_effect layout new
      refine ⟨_, p', layout', .decide events _ named, rfl, fun a mem => .inl ?_⟩
      simpa [abortsOf_singleton, Event.abort?] using mem
  | acknowledge decision member policy =>
    obtain ⟨_, _, r, _, _, _, i, _, ⟨rfl, _⟩ | ⟨front, rfl, unfinished, _, _, replaced⟩⟩ :=
      Journal.acknowledge_effect layout h
    · exact ⟨events, p, layout, .stay events, rfl, fun a => .inl⟩
    · exact replace_moves layout replaced rfl unfinished
  | complete decision id policy =>
    obtain ⟨_, _, _, r, _, _, _, _, ⟨rfl, _⟩ | ⟨front, rfl, unfinished, replaced⟩⟩ :=
      Journal.complete_effect layout h
    · exact ⟨events, p, layout, .stay events, rfl, fun a => .inl⟩
    · exact replace_moves layout replaced rfl unfinished
  | abort cancellation token now policy =>
    obtain ⟨c, aborted⟩ := fst_eq_ok.mp h
    obtain ⟨_, _, _, _, _, ⟨rfl, _⟩ | ⟨_, new⟩⟩ := Journal.abort_effect layout aborted
    · exact ⟨events, p, layout, .stay events, rfl, fun a => .inl⟩
    · obtain ⟨certificate, _, front, e, p', cancels, _, _, _, _, _, _, _, aborts, _, rfl, layout'⟩ :=
        Journal.abortNew_effect layout positive new
      refine ⟨_, p', layout', cancels.move, rfl, fun a mem => ?_⟩
      rw [aborts, List.mem_append, List.mem_singleton] at mem
      rcases mem with mem | rfl
      · exact .inl mem
      · exact .inr ⟨token, now, policy, rfl⟩

/-- The picked records of a longer list are the old ones, or the new one is among them. -/
structure Picks (pick : List Record → List Record) : Prop where
  concat : ∀ live q, ∀ r ∈ pick (live ++ [q]), r ∈ pick live ∨ r = q
  last : ∀ live q, q ∈ pick (live ++ [q])
  subset : ∀ live, pick live ⊆ live

theorem picks_all : Picks id :=
  ⟨fun _ _ _ mem => by simpa using mem, fun _ _ => by simp, fun _ => List.Subset.refl _⟩

theorem picks_last : Picks (·.getLast?.toList) :=
  ⟨fun _ _ _ mem => .inr (by simpa [eq_comm] using mem), fun _ _ => by simp, fun _ _ mem =>
    List.mem_of_getLast? (by simpa using mem)⟩

/-- At no time did an abort name a record that was picked then. -/
def Exclusive (pick : List Record → List Record) (events : List Event) : Prop :=
  ∀ past, past <+: events → ∀ a ∈ abortsOf past, ∀ r ∈ pick (liveOf past),
    a.abort.abortedRequestId ≠ r.request.id

theorem cancelled_target (h : p.step E s (.cancelled r a) = .ok p') :
    a.abort.decided = true ∧ r.completion = none ∧
      a.abort.abortedRevision = r.request.revision ∧
      a.abort.abortedRequestId = r.request.id ∧ r.request.id ∉ p.ids := by
  simp only [Position.step, Env.decidedAbort, checked_ok] at h
  obtain ⟨fresh, _, ⟨target, _⟩, _⟩ := h
  exact ⟨target.1, target.2.1, target.2.2.2.1, target.2.2.2.2, fresh⟩

theorem live_cancelled_apart (h : E.trail s (front ++ [.cancelled r a]) = .ok p) :
    a.abort.abortedRequestId = r.request.id ∧ a.abort.decided = true ∧
      ∀ q ∈ liveOf front, r.request.id ≠ q.request.id := by
  obtain ⟨q, before, stepped⟩ := trail_concat.mp h
  obtain ⟨decided, _, _, named, fresh⟩ := cancelled_target stepped
  refine ⟨named, decided, fun live mem same => fresh ?_⟩
  rw [(trail_ids before).1, same]
  exact List.mem_map_of_mem (liveOf_subset_recordsOf mem)

theorem skipped_undecided (h : p.step E s (.skipped a) = .ok p') : a.abort.decided = false := by
  simp only [Position.step, JournalScope.undecidedAbort, checked_ok] at h
  obtain ⟨⟨_, _, flags, _⟩, _⟩ := h
  exact flags.1

section

variable {pick : List Record → List Record}

theorem Exclusive.concat (old : Exclusive pick front)
    (last : ∀ a ∈ abortsOf (front ++ [e]), ∀ r ∈ pick (liveOf (front ++ [e])),
      a.abort.abortedRequestId ≠ r.request.id) : Exclusive pick (front ++ [e]) := by
  intro past before
  rcases List.prefix_concat_iff.mp before with rfl | before
  · exact last
  · exact old past before

/-- A move keeps the exclusion unless it skips a revision in the name of a picked record. -/
theorem Move.exclusive (picks : Picks pick) (moved : Move events events')
    (trail : E.trail s events' = .ok p) (exclusive : Exclusive pick events)
    (spares : ∀ a ∈ abortsOf events', a ∉ abortsOf events → a.abort.decided = false →
      ∀ r ∈ pick (liveOf events), a.abort.abortedRequestId ≠ r.request.id) :
    Exclusive pick events' := by
  have before {front : List Event} {e : Event} (exclusive : Exclusive pick (front ++ [e])) :
      Exclusive pick front := fun past inside => exclusive past (inside.trans (List.prefix_append ..))
  cases moved with
  | stay => exact exclusive
  | decide _ r named =>
    refine exclusive.concat fun a mem q seen => ?_
    have old := (mem_abortsOf_concat.mp mem).resolve_right nofun
    rw [liveOf_append, liveOf_singleton] at seen
    rcases picks.concat _ _ q seen with kept | rfl
    · exact exclusive _ List.prefix_rfl a old q kept
    · exact named a old
  | revise front r r' request unfinished =>
    refine (before exclusive).concat fun a mem q seen => ?_
    have old := (mem_abortsOf_concat.mp mem).resolve_right nofun
    rw [liveOf_append, liveOf_singleton] at seen
    rcases picks.concat _ _ q seen with kept | rfl
    · exact before exclusive _ List.prefix_rfl a old q kept
    · rw [request]
      refine exclusive _ List.prefix_rfl a (mem_abortsOf_concat.mpr (.inl old)) r ?_
      rw [liveOf_append, liveOf_singleton]
      exact picks.last ..
  | cancel front r a =>
    obtain ⟨named, _, apart⟩ := live_cancelled_apart trail
    refine (before exclusive).concat fun b mem q seen => ?_
    rw [liveOf_append, liveOf_singleton, Event.live?, Option.toList_none, List.append_nil] at seen
    rcases mem_abortsOf_concat.mp mem with old | new
    · exact before exclusive _ List.prefix_rfl b old q seen
    · obtain rfl := Option.some.inj new
      rw [named]
      exact apart q (picks.subset _ seen)
  | skip _ a =>
    refine exclusive.concat fun b mem q seen => ?_
    rw [liveOf_append, liveOf_singleton, Event.live?, Option.toList_none, List.append_nil] at seen
    by_cases old : b ∈ abortsOf events
    · exact exclusive _ List.prefix_rfl b old q seen
    · refine spares b mem old ?_ q seen
      obtain rfl := Option.some.inj ((mem_abortsOf_concat.mp mem).resolve_left old)
      obtain ⟨_, _, stepped⟩ := trail_concat.mp trail
      exact skipped_undecided stepped

end

theorem Journal.create_layout {scope : JournalScope} (h : create E scope = .ok j) :
    j.scope = scope ∧ 0 < scope.initialRevision ∧ j.Layout E [] .start := by
  simp only [create, unit_bind_eq_ok, pure_inj] at h
  obtain ⟨valid, rfl⟩ := h
  exact ⟨rfl, JournalScope.validate_positive valid, .nil, .nil, rfl, rfl⟩

/-- The journals a run leaves, each call allowed where it is made. -/
def Reached (E : Env T) (allowed : Journal T → JournalCall → Prop) :
    Journal T → Journal T → Prop :=
  Relation.ReflTransGen fun a b => ∃ (trust : Trust) (c : JournalCall),
    allowed a c ∧ c.run E trust a = .ok b

/-- A property of the events that every call of a run keeps holds at its end. -/
theorem Reached.induction {allowed : Journal T → JournalCall → Prop} {I : List Event → Prop}
    {start : Journal T} (layout : start.Layout E events p)
    (positive : 0 < start.scope.initialRevision) (run : Reached E allowed start j)
    (initial : I events)
    (kept : ∀ {a b : Journal T} {events events' p p'} {trust : Trust} {c : JournalCall},
      allowed a c → c.run E trust a = .ok b → a.Layout E events p → b.Layout E events' p' →
      Move events events' → (∀ r ∈ abortsOf events', r ∈ abortsOf events ∨
        ∃ token now policy, c = .abort r.abort token now policy) → I events → I events') :
    ∃ events p, j.scope = start.scope ∧ j.Layout E events p ∧ I events := by
  induction run with
  | refl => exact ⟨events, p, rfl, layout, initial⟩
  | tail _ step ih =>
    obtain ⟨trust, c, granted, ran⟩ := step
    obtain ⟨events, p, same, layout, holds⟩ := ih
    obtain ⟨events', p', layout', moved, sameScope, own⟩ :=
      c.run_moves (same.symm ▸ positive) layout ran
    exact ⟨events', p', sameScope.trans same, layout',
      kept granted ran layout layout' moved own holds⟩

section

variable (layout : j.Layout E events p)
include layout

theorem completed_live (mem : r ∈ j.records E) (completed : r.completion.isSome) :
    r ∈ j.live E := by
  rw [layout.records_eq] at mem
  rw [layout.live_eq]
  obtain ⟨d, inside, found⟩ := List.mem_filterMap.mp mem
  refine List.mem_filterMap.mpr ⟨d, inside, ?_⟩
  cases d with
  | decided q => exact found
  | cancelled q a =>
    obtain ⟨_, _, stepped⟩ := trail_mem layout.trail inside
    obtain rfl : q = r := Option.some.inj found
    simp [(cancelled_target stepped).2.1] at completed
  | skipped a => cases found

theorem fetchAbort_named {request : Request} {policy : Policy} {c : CommittedMaintenanceAbort}
    (h : j.fetchAbort E request trust policy = .ok c) :
    ∃ a ∈ abortsOf events, a.abort.abortedRequestId = request.id := by
  simp only [Journal.fetchAbort, bind_eq_ok, require_eq_ok] at h
  obtain ⟨digest, _, history, read, a, found, _⟩ := h
  obtain ⟨_, rfl⟩ := layout.read read
  have named := List.find?_some found
  simp only [decide_eq_true_eq] at named
  exact ⟨a, List.mem_of_find?_eq_some found, named.2⟩

theorem fetch_live {request : Request} {policy : Policy} {c : CommittedTransition}
    (h : j.fetch E request trust policy = .ok c) : ∃ r ∈ liveOf events, r.request = request := by
  simp only [Journal.fetch, checked_ok, require_eq_ok] at h
  obtain ⟨history, read, _, _, _, r, head, same, _⟩ := h
  obtain ⟨_, rfl⟩ := layout.read read
  exact ⟨r, effective_mem_liveOf layout.trail head, same⟩

omit layout in
theorem select_mem {revision : Option ℕ} {records : List Record} {selected : Option Record}
    (h : records.foldl (select revision) selected = some r) : r ∈ records ∨ selected = some r := by
  induction records generalizing selected with
  | nil => exact .inr h
  | cons q records ih =>
    rcases ih h with mem | chosen
    · exact .inl (List.mem_cons_of_mem _ mem)
    · rw [select] at chosen
      split_ifs at chosen
      · exact .inl (Option.some.inj chosen ▸ List.mem_cons_self)
      · exact .inr chosen

theorem fetchCompletedRevision_live {request : Request} {policy : Policy}
    {c : HistoricalCompletedTransition}
    (h : j.fetchCompletedRevision E request trust policy = .ok c) :
    ∃ r ∈ liveOf events, r.request = request := by
  simp only [Journal.fetchCompletedRevision, checked_ok, require_eq_ok] at h
  obtain ⟨_, ⟨history, selected⟩, read, unaborted, _, _, r, found, same, _, completion, completed,
    _⟩ := h
  obtain ⟨events', p', _, layout', rfl, rfl⟩ := Journal.readWithRevision_eq_ok.mp read
  obtain ⟨rfl, rfl⟩ := layout.unique layout'
  have mem : r ∈ recordsOf events := (select_mem found).resolve_right (by simp)
  refine ⟨r, ?_, same⟩
  rw [← layout.live_eq]
  exact completed_live layout (layout.records_eq ▸ mem) (by simp [completed])

end

theorem Reached.exclusive {scope : JournalScope} {start : Journal T}
    {pick : List Record → List Record} (picks : Picks pick)
    (created : Journal.create E scope = .ok start)
    (run : Reached E (fun a c => c.SparesOf E pick a) start j) :
    ∃ events p, j.Layout E events p ∧ ∀ a ∈ abortsOf events, ∀ r ∈ pick (liveOf events),
      a.abort.abortedRequestId ≠ r.request.id := by
  obtain ⟨rfl, positive, empty⟩ := Journal.create_layout created
  have none : Exclusive pick [] := fun past before a mem => by simp_all [List.prefix_nil, abortsOf]
  obtain ⟨events, p, _, layout, exclusive⟩ := run.induction (I := Exclusive pick) empty positive none
    fun spares _ layout layout' moved own holds => by
      refine moved.exclusive picks layout'.trail holds fun a mem new undecided r live => ?_
      obtain ⟨token, now, policy, rfl⟩ := (own a mem).resolve_left new
      exact spares undecided r (layout.live_eq ▸ live)
  exact ⟨events, p, layout, exclusive events List.prefix_rfl⟩

/-- A request an abort names is not live, so no call hands out both. -/
theorem aborted_never_live {scope : JournalScope} {start : Journal T}
    (created : Journal.create E scope = .ok start)
    (run : Reached E (fun a c => c.Spares E a) start j) :
    (∀ a ∈ j.abortRecords E, ∀ r ∈ j.records E, r.completion.isSome ∨ r ∈ j.live E →
      a.abort.abortedRequestId ≠ r.request.id) ∧
    ∀ request trust policy aborted, j.fetchAbort E request trust policy = .ok aborted →
      ∀ trust' policy', (∀ c, j.fetch E request trust' policy' ≠ .ok c) ∧
        (∀ c, j.fetchCompleted E request trust' policy' ≠ .ok c) ∧
        ∀ c, j.fetchCompletedRevision E request trust' policy' ≠ .ok c := by
  obtain ⟨events, p, layout, exclusive⟩ := run.exclusive picks_all created
  constructor
  · intro a mem r stored settled
    have live : r ∈ j.live E := settled.elim (completed_live layout stored) id
    exact exclusive a (layout.abortRecords_eq ▸ mem) r (layout.live_eq ▸ live)
  · intro request trust policy aborted fetched trust' policy'
    obtain ⟨a, mem, named⟩ := fetchAbort_named layout fetched
    have apart : ∀ r ∈ liveOf events, r.request ≠ request := fun r live same =>
      exclusive a mem r live (same ▸ named)
    refine ⟨fun c h => ?_, fun c h => ?_, fun c h => ?_⟩
    · obtain ⟨r, live, same⟩ := fetch_live layout h
      exact apart r live same
    · simp only [Journal.fetchCompleted, bind_eq_ok] at h
      obtain ⟨committed, found, _⟩ := h
      obtain ⟨r, live, same⟩ := fetch_live layout found
      exact apart r live same
    · obtain ⟨r, live, same⟩ := fetchCompletedRevision_live layout h
      exact apart r live same

namespace Sample

/-- Request 1 is aborted undecided at revision 1, then request 2 is decided. -/
def skipped : Journal fun α => α := after (decision 2) (after (abortion 1) created)

theorem skipped_reached {allowed : Journal (fun α => α) → JournalCall → Prop}
    (aborts : allowed created (abortion 1)) (decides : ∀ j, allowed j (decision 2)) :
    Reached env allowed created skipped := by
  have first : Reached env allowed created (after (abortion 1) created) :=
    .single ⟨trusted, abortion 1, aborts, run_after (by decide +kernel)⟩
  exact first.tail ⟨trusted, decision 2, decides _, run_after (by decide +kernel)⟩

theorem aborted_never_live_skipped : skipped.abortRecords env ≠ [] ∧ skipped.live env ≠ [] ∧
    (∀ a ∈ skipped.abortRecords env, ∀ r ∈ skipped.records env,
      r.completion.isSome ∨ r ∈ skipped.live env → a.abort.abortedRequestId ≠ r.request.id) ∧
    ∀ request trust policy aborted, skipped.fetchAbort env request trust policy = .ok aborted →
      ∀ trust' policy', (∀ c, skipped.fetch env request trust' policy' ≠ .ok c) ∧
        (∀ c, skipped.fetchCompleted env request trust' policy' ≠ .ok c) ∧
        ∀ c, skipped.fetchCompletedRevision env request trust' policy' ≠ .ok c :=
  ⟨by decide +kernel, by decide +kernel, aborted_never_live create_created
    (skipped_reached (fun _ _ mem => nomatch mem) fun _ => trivial)⟩

theorem completed_reached : Reached env (fun _ _ => True) created completed := by
  have first : Reached env (fun _ _ => True) created decided :=
    .single ⟨trusted, decision 1, trivial, run_decision⟩
  have second : Reached env (fun _ _ => True) created halfway :=
    first.tail ⟨trusted, acknowledgement 1 0, trivial, run_acknowledgement.1⟩
  have third : Reached env (fun _ _ => True) created acknowledged :=
    second.tail ⟨trusted, acknowledgement 1 1, trivial, run_acknowledgement.2⟩
  exact third.tail ⟨trusted, completion 1, trivial, run_completion⟩

/-- The completed request 1 is aborted as if it were the undecided one of revision 2. -/
def overtaken : Journal fun α => α := after (abortion 2) completed

theorem overtaken_reached : Reached env (fun _ _ => True) created overtaken :=
  completed_reached.tail ⟨trusted, abortion 2, trivial, run_after (by decide +kernel)⟩

theorem aborted_and_completed : Reached env (fun _ _ => True) created overtaken ∧
    (∃ a ∈ overtaken.abortRecords env, ∃ r ∈ overtaken.records env,
      r.completion.isSome ∧ a.abort.abortedRequestId = r.request.id) ∧
    (overtaken.fetchAbort env (request 1) trusted policy).toOption.isSome ∧
    (overtaken.fetchCompleted env (request 1) trusted policy).toOption.isSome :=
  ⟨overtaken_reached, by decide +kernel, by decide +kernel, by decide +kernel⟩

end Sample

/-! What each call writes, with the record it writes. -/

/-- A call leaves the journal as it is, or changes the end of the ledger. -/
inductive Writes (E : Env T) (j : Journal T) :
    JournalCall → Journal T → List Event → List Event → Prop
  | stay (c : JournalCall) (events : List Event) : Writes E j c j events events
  | decide (request : Request) (token : String) (now : ℕ) (policy : Policy) (j' : Journal T)
    (events : List Event) :
    Writes E j (.decide request token now policy) j' events
      (events ++ [.decided (.opened request token)])
  | acknowledge (decision : CommittedTransition) (member : Participant) (policy : Policy)
    (j' : Journal T) (front : List Event) (r : Record) (i : Fin 2)
    (unfinished : r.completion = none) :
    Writes E j (.acknowledge decision member policy) j' (front ++ [.decided r])
      (front ++ [.decided { r with acknowledgements := Function.update r.acknowledgements i true }])
  | complete (decision : CommittedTransition) (id : Id) (policy : Policy) (j' : Journal T)
    (front : List Event) (r : Record) (request : r.request = decision.request)
    (digest : decision.tokenDigest = E.tokenDigest r.token)
    (acknowledged : r.acknowledgements = both true) (unfinished : r.completion = none) :
    Writes E j (.complete decision id policy) j' (front ++ [.decided r])
      (front ++ [.decided { r with completion := some id }])
  | abort (document : MaintenanceAbort) (token : String) (now : ℕ) (policy : Policy)
    (j' : Journal T) (certificate : Id) (events events' : List Event)
    (cancels : Cancels ⟨2, document, token, certificate⟩ events events')
    (applicable : policy.abortApplicable j.scope document = .ok ()) :
    Writes E j (.abort document token now policy) j' events events'

variable {E : Env T} {trust : Trust} {events events' : List Event} {p p' : Position}
  {j j' : Journal T} {c : JournalCall}

theorem Journal.replace_made {front : List Event} {r r' : Record}
    (layout : j.Layout E (front ++ [.decided r]) p) (replaced : j.replace E r' = .ok j')
    (same : r'.request = r.request) : ∃ p', j'.Layout E (front ++ [.decided r']) p' := by
  obtain ⟨p', trail⟩ := trail_revise same layout.trail
  obtain ⟨_, _, _, _, _, _, made⟩ :=
    Journal.replace_layout layout (congrArg (·.revision) same) trail replaced
  exact ⟨p', made⟩

theorem JournalCall.run_writes (positive : 0 < j.scope.initialRevision)
    (layout : j.Layout E events p) (ran : c.run E trust j = .ok j') :
    ∃ events' p', j'.Layout E events' p' ∧ Writes E j c j' events events' := by
  obtain ⟨events', p', layout', _⟩ := c.run_moves positive layout ran
  refine ⟨events', p', layout', ?_⟩
  cases c with
  | decide request token now policy =>
    obtain ⟨c, decided⟩ := fst_eq_ok.mp ran
    obtain ⟨_, _, ⟨rfl, _⟩ | new⟩ := Journal.decide_effect layout decided
    · obtain ⟨rfl, _⟩ := layout.unique layout'
      exact .stay ..
    · obtain ⟨_, _, _, _, _, p', made⟩ := Journal.decideNew_effect layout new
      obtain ⟨rfl, _⟩ := made.unique layout'
      exact .decide ..
  | acknowledge decision member policy =>
    obtain ⟨_, _, r, _, _, _, i, _, ⟨rfl, _⟩ | ⟨front, rfl, unfinished, _, _, replaced⟩⟩ :=
      Journal.acknowledge_effect layout ran
    · obtain ⟨rfl, _⟩ := layout.unique layout'
      exact .stay ..
    · obtain ⟨p', made⟩ := Journal.replace_made layout replaced rfl
      obtain ⟨rfl, _⟩ := made.unique layout'
      exact .acknowledge _ _ _ _ _ _ _ unfinished
  | complete decision id policy =>
    obtain ⟨_, _, _, r, _, request, digest, acknowledged, ⟨rfl, _⟩ |
      ⟨front, rfl, unfinished, replaced⟩⟩ := Journal.complete_effect layout ran
    · obtain ⟨rfl, _⟩ := layout.unique layout'
      exact .stay ..
    · obtain ⟨p', made⟩ := Journal.replace_made layout replaced rfl
      obtain ⟨rfl, _⟩ := made.unique layout'
      exact .complete _ _ _ _ _ _ request digest acknowledged unfinished
  | abort document token now policy =>
    obtain ⟨c, aborted⟩ := fst_eq_ok.mp ran
    obtain ⟨_, _, _, _, _, ⟨rfl, _⟩ | ⟨_, new⟩⟩ := Journal.abort_effect layout aborted
    · obtain ⟨rfl, _⟩ := layout.unique layout'
      exact .stay ..
    · obtain ⟨certificate, _, front, e, p', cancels, _, _, _, applicable, _, _, _, _, _, _, made⟩ :=
        Journal.abortNew_effect layout positive new
      obtain ⟨rfl, _⟩ := made.unique layout'
      exact .abort _ _ _ _ _ _ _ _ cancels applicable

namespace Writes

/-- The call is an abort that the policy found applicable. -/
def Aborts (j : Journal T) (c : JournalCall) : Prop :=
  ∃ document token now policy, c = .abort document token now policy ∧
    policy.abortApplicable j.scope document = .ok ()

theorem keeps (writes : Writes E j c j' events events') {r : Record} (live : r ∈ liveOf events) :
    (∃ r' ∈ liveOf events', r'.request = r.request ∧ r'.token = r.token ∧
      ∀ id ∈ r.completion, r'.completion = some id) ∨ Aborts j c := by
  cases writes with
  | stay => exact .inl ⟨r, live, rfl, rfl, fun _ mem => mem⟩
  | decide request token now policy =>
    exact .inl ⟨r, by simp [live], rfl, rfl, fun _ mem => mem⟩
  | acknowledge decision member policy _ front q i unfinished =>
    rcases mem_liveOf_concat.mp live with old | last
    · exact .inl ⟨r, mem_liveOf_concat.mpr (.inl old), rfl, rfl, fun _ mem => mem⟩
    · obtain rfl := Option.some.inj last
      exact .inl ⟨_, mem_liveOf_concat.mpr (.inr rfl), rfl, rfl, fun _ mem => mem⟩
  | complete decision id policy _ front q request digest acknowledged unfinished =>
    rcases mem_liveOf_concat.mp live with old | last
    · exact .inl ⟨r, mem_liveOf_concat.mpr (.inl old), rfl, rfl, fun _ mem => mem⟩
    · obtain rfl := Option.some.inj last
      exact .inl ⟨_, mem_liveOf_concat.mpr (.inr rfl), rfl, rfl,
        fun id mem => by rw [unfinished] at mem; cases mem⟩
  | abort document token now policy _ certificate _ _ cancels applicable =>
    exact .inr ⟨document, token, now, policy, rfl, applicable⟩

theorem completed (writes : Writes E j c j' events events') {r : Record}
    (live : r ∈ liveOf events') {id : Id} (done : r.completion = some id) :
    r ∈ liveOf events ∨ ∃ decision policy, c = .complete decision id policy ∧
      r.request = decision.request ∧ decision.tokenDigest = E.tokenDigest r.token ∧
      r.acknowledgements = both true := by
  cases writes with
  | stay => exact .inl live
  | decide request token now policy =>
    rcases mem_liveOf_concat.mp live with old | last
    · exact .inl old
    · obtain rfl := Option.some.inj last
      cases done
  | acknowledge decision member policy _ front q i unfinished =>
    rcases mem_liveOf_concat.mp live with old | last
    · exact .inl (mem_liveOf_concat.mpr (.inl old))
    · obtain rfl := Option.some.inj last
      simp [unfinished] at done
  | complete decision other policy _ front q request digest acknowledged unfinished =>
    rcases mem_liveOf_concat.mp live with old | last
    · exact .inl (mem_liveOf_concat.mpr (.inl old))
    · obtain rfl := Option.some.inj last
      obtain rfl := Option.some.inj done
      exact .inr ⟨decision, policy, rfl, request, digest, acknowledged⟩
  | abort document token now policy _ certificate _ _ cancels applicable =>
    cases cancels with
    | decided front q =>
      have old := (mem_liveOf_concat.mp live).resolve_right nofun
      exact .inl (mem_liveOf_concat.mpr (.inl old))
    | undecided => exact .inl ((mem_liveOf_concat.mp live).resolve_right nofun)

end Writes

end TerrapiVault.Recovery
