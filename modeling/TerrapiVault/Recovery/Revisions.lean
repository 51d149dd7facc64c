import TerrapiVault.Recovery.Exclusion
import Mathlib.Data.List.Chain

/-! The revision counter of a journal. Records and aborts share one counter, the
live records form a lineage of their own, and a completed record is final. -/
namespace TerrapiVault.Recovery

variable {T : Type → Type}

/-- The decided records that an abort took. -/
def Journal.cancelled (E : Env T) (j : Journal T) : List Record :=
  (j.records E).filter fun r =>
    ¬∀ a ∈ j.abortRecords E, a.abort.abortedRevision ≠ r.request.revision

/-- The aborts of requests that were never decided. -/
def Journal.skipped (E : Env T) (j : Journal T) : List AbortRecord :=
  (j.abortRecords E).filter fun a => a.abort.decided = false

/-- `r` continues the data lineage of `previous`, which is complete. -/
def Continues (previous r : Record) : Prop :=
  previous.completion.isSome ∧
    ∀ i, (r.request.participants i).oldBase = some (previous.request.participants 0).target ∧
      (r.request.participants i).member = (previous.request.participants i).member ∧
      (r.request.participants i).generation = (previous.request.participants i).generation

variable {E : Env T} {trust : Trust} {events events' front : List Event} {e : Event}
  {p p' : Position} {j j' : Journal T} {s : JournalScope}

theorem consumed_perm (h : E.trail s events = .ok p) :
    ((recordsOf events).map (fun r => r.request.revision) ++
      ((abortsOf events).filter fun a => a.abort.decided = false).map
        (fun a => a.abort.abortedRevision)).Perm (events.map Event.revision) := by
  have flags : ∀ e ∈ events, (∀ r a, e = .cancelled r a → a.abort.decided = true) ∧
      ∀ a, e = .skipped a → a.abort.decided = false := by
    intro e mem
    obtain ⟨q, q', stepped⟩ := trail_mem h mem
    refine ⟨fun r a same => ?_, fun a same => ?_⟩
    · exact (cancelled_target (same ▸ stepped)).1
    · exact skipped_undecided (same ▸ stepped)
  clear h
  induction events with
  | nil => rfl
  | cons e rest ih =>
    rw [List.forall_mem_cons] at flags
    have tail := ih flags.2
    cases e with
    | decided r => exact tail.cons _
    | cancelled r a =>
      have decided := flags.1.1 r a rfl
      have none : abortsOf (.cancelled r a :: rest) = a :: abortsOf rest := rfl
      rw [none, List.filter_cons_of_neg (by simp [decided])]
      exact tail.cons _
    | skipped a =>
      have undecided := flags.1.2 a rfl
      have first : abortsOf (.skipped a :: rest) = a :: abortsOf rest := rfl
      rw [first, List.filter_cons_of_pos (by simp [undecided])]
      exact List.perm_middle.trans (tail.cons _)

theorem live_append_cancelled_perm (j : Journal T) :
    (j.live E ++ j.cancelled E).Perm (j.records E) := by
  have whole := List.filter_append_perm (fun r : Record => decide
    (∀ a ∈ j.abortRecords E, a.abort.abortedRevision ≠ r.request.revision)) (j.records E)
  simpa only [Journal.live, Journal.cancelled, decide_not] using whole

theorem Journal.Layout.head_succ (layout : j.Layout E events p)
    (positive : 0 < j.scope.initialRevision) :
    j.head + 1 = j.scope.initialRevision + events.length := by
  rw [layout.head, Position.lastRevision, trail_consumed layout.trail]
  have revisions := trail_revisions layout.trail
  cases events using List.reverseRecOn with
  | nil =>
    simp only [List.getLast?_nil, Option.map_none, Option.getD_none, List.length_nil]
    omega
  | append_singleton front last =>
    rw [List.map_append, List.length_append, List.range'_append_1.symm] at revisions
    have value : last.revision = j.scope.initialRevision + front.length := by
      simpa using List.append_inj_right' revisions rfl
    simp only [List.getLast?_concat, Option.map_some, Option.getD_some, List.length_append,
      List.length_cons, List.length_nil]
    omega

theorem chain_continues {effective : Option Record} {previous : Option ℕ} {q r : Record}
    (h : s.chain effective previous r = .ok ()) (head : effective = some q) : Continues q r := by
  simp only [JournalScope.chain, head, checked_ok] at h
  obtain ⟨_, _, _, ⟨complete, _, base⟩, _, members⟩ := h
  exact ⟨complete, fun i => ⟨base i, members i⟩⟩

theorem live_chain (h : E.trail s events = .ok p) : (liveOf events).IsChain Continues := by
  induction events using List.reverseRecOn generalizing p with
  | nil => exact .nil
  | append_singleton events e ih =>
    obtain ⟨q, before, stepped⟩ := trail_concat.mp h
    rw [liveOf_append, liveOf_singleton]
    cases e with
    | decided r =>
      have chained := ((step_eq_ok stepped).2.2.2.1 r rfl).2
      refine List.isChain_append.mpr ⟨ih before, .singleton r, ?_⟩
      intro last found _ first
      cases first
      exact chain_continues chained ((trail_effective before).1.trans found)
    | cancelled r a => simpa [Event.live?] using ih before
    | skipped a => simpa [Event.live?] using ih before

theorem Move.completed {r : Record} (moved : Move events events') (mem : r ∈ recordsOf events)
    (completed : r.completion.isSome) : r ∈ recordsOf events' := by
  cases moved with
  | stay => exact mem
  | decide _ q named => simp [mem]
  | revise front q q' request unfinished =>
    rw [recordsOf_append, recordsOf_singleton] at mem
    rcases List.mem_append.mp mem with mem | mem
    · simp [mem]
    · obtain rfl : r = q := by simpa [Event.record?] using mem
      simp [unfinished] at completed
  | cancel front q a => simpa [recordsOf_singleton, Event.record?] using mem
  | skip _ a => simp [mem]

theorem record_unique {r r' : Record} (layout : j.Layout E events p) (mem : r ∈ recordsOf events)
    (mem' : r' ∈ recordsOf events) (same : r'.request.id = r.request.id) : r' = r := by
  obtain ⟨ids, nodup⟩ := trail_ids layout.trail
  rw [ids] at nodup
  exact List.inj_on_of_nodup_map nodup mem' mem same

theorem decide_names {request : Request} {token : String} {now : ℕ} {policy : Policy}
    {c : CommittedTransition} (layout : j.Layout E events p)
    (h : j.decide E request token now trust policy = .ok (j', c)) :
    (∃ r ∈ (liveOf events).getLast?, r.request = request) ∨
      ∀ a ∈ abortsOf events, a.abort.abortedRequestId ≠ request.id := by
  obtain ⟨_, _, ⟨rfl, r, effective, same, _⟩ | new⟩ := Journal.decide_effect layout h
  · exact .inl ⟨r, (trail_effective layout.trail).1 ▸ effective, same⟩
  · exact .inr (Journal.decideNew_effect layout new).1

/-- Revisions are consumed once and in order. The last part needs every abort of an
undecided request to spare the effective record. -/
theorem revisions_in_order {scope : JournalScope} {start : Journal T}
    (created : Journal.create E scope = .ok start) (run : Reached E (fun _ _ => True) start j) :
    ((j.live E ++ j.cancelled E).map (fun r => r.request.revision) ++
        (j.skipped E).map (fun a => a.abort.abortedRevision)).Perm
      (List.range' scope.initialRevision (j.head + 1 - scope.initialRevision)) ∧
    (∀ trust history, j.read E trust = .ok history →
      history.lastRevision = j.head ∧ history.head = (j.live E).getLast?) ∧
    (j.live E).IsChain Continues ∧
    (∀ j', Reached E (fun _ _ => True) j j' → ∀ r ∈ j.records E, r.completion.isSome →
      r ∈ j'.records E ∧ ∀ r' ∈ j'.records E, r'.request.id = r.request.id → r' = r) ∧
    (Reached E (fun a c => c.SparesHead E a) start j → ∀ a ∈ j.abortRecords E,
      ∀ request token now trust policy, request.id = a.abort.abortedRequestId →
        ∀ result, j.decide E request token now trust policy ≠ .ok result) := by
  obtain ⟨rfl, positive, empty⟩ := Journal.create_layout created
  obtain ⟨events, p, sameScope, layout, _⟩ := run.induction (I := fun _ => True) empty positive
    trivial fun _ _ _ _ _ _ _ => trivial
  have positive : 0 < j.scope.initialRevision := sameScope.symm ▸ positive
  rw [← sameScope]
  refine ⟨?_, ?_, ?_, ?_, ?_⟩
  · have length : j.head + 1 - j.scope.initialRevision = events.length := by
      have := layout.head_succ positive
      omega
    have records := (live_append_cancelled_perm (E := E) j).map fun r => r.request.revision
    rw [layout.records_eq] at records
    rw [length, ← trail_revisions layout.trail, Journal.skipped, layout.abortRecords_eq]
    exact (records.append_right _).trans (consumed_perm layout.trail)
  · intro trust history read
    obtain ⟨_, rfl⟩ := layout.read read
    refine ⟨layout.head.symm, ?_⟩
    rw [layout.live_eq]
    exact (trail_effective layout.trail).1
  · rw [layout.live_eq]
    exact live_chain layout.trail
  · intro j' later r mem completed
    rw [layout.records_eq] at mem
    obtain ⟨events', p', _, layout', kept⟩ := later.induction (I := fun events => r ∈ recordsOf events)
      layout positive mem fun _ _ _ _ moved _ mem => moved.completed mem completed
    rw [layout'.records_eq]
    exact ⟨kept, fun r' mem' same => record_unique layout' kept mem' same⟩
  · intro spared a mem request token now trust policy named result decided
    obtain ⟨events', p', layout', exclusive⟩ := spared.exclusive picks_last created
    rw [layout'.abortRecords_eq] at mem
    rcases decide_names layout' decided with ⟨r, live, rfl⟩ | unnamed
    · exact exclusive a mem r (Option.mem_toList.mpr live) named.symm
    · exact unnamed a mem named.symm

namespace Sample

theorem revisions_in_order_skipped : (skipped.head = 2 ∧ skipped.abortRecords env ≠ []) ∧
    ((skipped.live env ++ skipped.cancelled env).map (fun r => r.request.revision) ++
        (skipped.skipped env).map (fun a => a.abort.abortedRevision)).Perm
      (List.range' scope.initialRevision (skipped.head + 1 - scope.initialRevision)) ∧
    ∀ a ∈ skipped.abortRecords env, ∀ request token now trust policy,
      request.id = a.abort.abortedRequestId →
        ∀ result, skipped.decide env request token now trust policy ≠ .ok result := by
  have run : Reached env (fun _ _ => True) created skipped := skipped_reached trivial fun _ => trivial
  obtain ⟨consumed, _, _, _, never⟩ := revisions_in_order create_created run
  exact ⟨by decide +kernel, consumed, never (skipped_reached (fun _ _ mem => nomatch mem) fun _ => trivial)⟩

/-- The request that the abort names is decided once more. -/
theorem aborted_request_decided : Reached env (fun _ _ => True) created overtaken ∧
    (∃ a ∈ overtaken.abortRecords env, (request 1).id = a.abort.abortedRequestId) ∧
    (overtaken.decide env (request 1) (token .transition 1) 0 trusted policy).toOption.isSome :=
  ⟨overtaken_reached, by decide +kernel, by decide +kernel⟩

end Sample

end TerrapiVault.Recovery
