import TerrapiVault.Maintenance.Restoring
import TerrapiVault.Maintenance.Certificates
import TerrapiVault.Recovery.Exclusion
import TerrapiVault.Typed.Calls

/-! A certified maintenance closes a node to its ordinary calls with the first row it
writes, and only the proven end of the maintenance opens it again: a completion that the
journal recorded after both nodes had applied, or a recorded abort. A completion can
always be carried to the nodes. -/
namespace TerrapiVault.Recovery

open Replication (ensure_eq_ok)

variable {T : Type → Type} {E : Env T} {trust : Trust} {events : List Event} {p : Position}
  {j j' : Journal T}

namespace Journal

theorem fetchCompleted_effective (admits : j.Admits E trust events) (layout : j.Layout E events p)
    (whole : j.lossRecordExists E trust = .ok false) {r : Record} (effective : p.effective = some r)
    {id : Id} (done : r.completion = some id) :
    ∃ c, j.fetchCompleted E r.request trust permissive = .ok c ∧ c.completion = id ∧
      c.committed.tokenDigest = E.tokenDigest r.token := by
  have read : j.read E trust = .ok (p.history j.scope events) :=
    Journal.read_eq_ok.mpr ⟨events, p, admits, layout, rfl⟩
  have live := liveOf_subset_recordsOf (effective_mem_liveOf layout.trail effective)
  obtain ⟨row, _, load⟩ := forall₂_mem_right admits.records live
  obtain ⟨_, complete, _, v, verified⟩ := loadRecord_eq_ok.mp load
  refine ⟨⟨{ r with tokenDigest := v.tokenDigest, certificateId := v.certificateId },
    id⟩, ?_, rfl, Env.verifyHistorical_tokenDigest verified⟩
  simp only [fetchCompleted, fetch, Env.committed, run_ok, require_eq_ok]
  exact ⟨_, ⟨_, read, false, whole, ensure_eq_ok.mpr rfl, r, effective, ensure_eq_ok.mpr rfl,
    rfl, v, verified, rfl⟩, ensure_eq_ok.mpr (complete id done).2, id, done, rfl⟩

theorem complete_fetched {decision : CommittedTransition} {id : Id} {policy : Policy}
    (layout : j.Layout E events p) (ran : j.complete E decision id trust policy = .ok j') :
    ∃ c, j'.fetchCompleted E decision.request trust permissive = .ok c ∧ c.completion = id := by
  obtain ⟨history, read⟩ := complete_admits layout ran
  obtain ⟨admits, whole, _, r, effective, request, _, _, ⟨rfl, done⟩ |
    ⟨front, rfl, _, replaced⟩⟩ := complete_effect layout ran
  · obtain ⟨c, fetched, same, _⟩ := fetchCompleted_effective admits layout whole effective done
    exact ⟨c, request ▸ fetched, same⟩
  · obtain ⟨p', layout'⟩ := replace_made layout replaced rfl
    obtain ⟨rows, rfl⟩ := replace_frame replaced
    have latest : p'.effective = some { r with completion := some id } := by
      rw [(trail_effective layout'.trail).1]
      simp [liveOf_singleton, Event.live?]
    obtain ⟨c, fetched, same, _⟩ :=
      fetchCompleted_effective (layout'.read read).1 layout' whole latest rfl
    exact ⟨c, request ▸ fetched, same⟩

theorem fetchCompleted_nonzero {q : Request} {policy : Policy} {c : CompletedTransition}
    (fetched : j.fetchCompleted E q trust policy = .ok c) : c.completion ≠ zeroId := by
  simp only [fetchCompleted, fetch, Env.committed, run_ok, require_eq_ok] at fetched
  obtain ⟨_, ⟨history, read, _, _, _, r, head, _, _, _, _, rfl⟩, _, id, done, rfl⟩ := fetched
  obtain ⟨events, p, admits, layout, rfl⟩ := Journal.read_eq_ok.mp read
  have live := liveOf_subset_recordsOf (effective_mem_liveOf layout.trail head)
  obtain ⟨row, _, load⟩ := forall₂_mem_right admits.records live
  exact ((loadRecord_eq_ok.mp load).2.1 id done).1

end Journal

end TerrapiVault.Recovery

namespace TerrapiVault.Maintenance

open Replication
open Recovery

variable {T : Type → Type} {F C V : Type}

/-! The ordinary calls of a node. -/

/-- What serves the ordinary calls besides the host: the capacity check of a write, a
restore that is under way, and the pages of a publication. -/
structure Services (F C V : Type) where
  writeCapacity : F → Tables C V → Typed.Record C → Result Unit
  restoring : F → Option (Result Unit)
  publish : Node F C V → Result (Manifest × Node F C V)

namespace Node

variable (E : Env T) (host : Host F C V) (services : Services F C V) (n : Node F C V)

/-- `open_inner` on an existing file. -/
def reopen (identity : Identity) (role : Role) (opened : Opened) : Result Unit := do
  ensure (identity.schema = host.contract.schema ∧ 0 < identity.epoch ∧ identity.cluster ≠ "" ∧
    identity.tenant ≠ "") "invalid typed node identity"
  (scope identity).validate
  ensure (n.identity = identity ∧ n.role = role) "typed node owner mismatch"
  n.verifyOwner E host opened.transitionTrust
  n.segments.verifyLiveCertified E opened.certifiedAuthority false
  n.verifyOwner E host opened.transitionTrust
  match services.restoring n.files with
  | some check => check
  | none => do
    let _ ← n.store.current host.schema n.identity false
    pure ()
  host.verifyAccounting n.files n.store

def access (opened : Opened) : Typed.Access C V where
  schema := host.schema
  identity := n.identity
  role := n.role
  owner := n.verifyOwner E host opened.transitionTrust
  admission := n.admission E host opened
  writeCapacity := services.writeCapacity n.files

def publishSnapshot (opened : Opened) : Result (Manifest × Node F C V) := do
  n.admission E host opened
  services.publish n

end Node

inductive Service (C : Type) where
  | «open» (identity : Identity) (role : Role)
  | call (c : Typed.Call C)
  | view
  | publishSnapshot

/-- The file after an ordinary call. -/
def Node.serve [DecidableEq C] (E : Env T) (host : Host F C V) (services : Services F C V)
    (n : Node F C V) (opened : Opened) (random : Bytes32) : Service C → Result (Node F C V)
  | .open identity role => do
    n.reopen E host services identity role opened
    pure n
  | .call c => do
    let after ← c.run (n.access E host services opened) n.store random
    pure { n with store := after }
  | .view => do
    let _ ← (n.access E host services opened).view n.store
    pure n
  | .publishSnapshot => do
    let (_, after) ← n.publishSnapshot E host services opened
    pure after

variable {E : Env T} {host : Host F C V} {trust : Trust} {n' : Node F C V} {h : Handle}
  {j : Journal T} {i : Fin 2} {scope : JournalScope} {r : Prepared} {jc : JournalCall}

namespace Node

variable {n : Node F C V} {opened : Opened}

theorem verifyOwner_runtime {trust : Option Trust} (ok : n.verifyOwner E host trust = .ok ()) :
    n.runtime ≠ 5 := by
  intro closed
  simp only [verifyOwner, historyFormat, closed, run_ok] at ok
  obtain ⟨_, _, format, _⟩ := ok
  cases format

/-- No ordinary call gets past the runtime format of a pending maintenance. -/
theorem serve_runtime [DecidableEq C] {services : Services F C V} {random : Bytes32}
    {service : Service C} (ok : n.serve E host services opened random service = .ok n') :
    n.runtime ≠ 5 := by
  cases service with
  | «open» identity role =>
    simp only [serve, reopen, run_ok] at ok
    obtain ⟨⟨_, _, _, owner, _⟩, _⟩ := ok
    exact verifyOwner_runtime owner
  | call c =>
    simp only [serve, run_ok] at ok
    obtain ⟨_, ran, _⟩ := ok
    have admitted : n.admission E host opened = .ok () := c.run_admitted ran
    simp only [admission, run_ok] at admitted
    obtain ⟨owner, _⟩ := admitted
    exact verifyOwner_runtime owner
  | view =>
    simp only [serve, Typed.Access.view, access, run_ok] at ok
    obtain ⟨_, ⟨owner, _⟩, _⟩ := ok
    exact verifyOwner_runtime owner
  | publishSnapshot =>
    simp only [serve, publishSnapshot, admission, run_ok] at ok
    obtain ⟨_, ⟨⟨owner, _⟩, _⟩, _⟩ := ok
    exact verifyOwner_runtime owner

end Node

open Site

variable {s s' : Site T F C V} {events events' : List Event} {p p' : Position}
  {older : Fin 2 → List Request}

/-! What holds under any trust. -/

/-- A pending node is in the runtime format of a maintenance; what the journal completed
is certified on both nodes, under the derived identifier. -/
structure Site.Closed (E : Env T) (s : Site T F C V) (events : List Event) : Prop where
  runtime : ∀ i, (s.node i).marker.isSome → (s.node i).runtime = 5
  certified : ∀ r ∈ liveOf events, r.completion.isSome → ∀ i, r.request ∈ (s.node i).certified
  derived : ∀ r ∈ liveOf events, ∀ id ∈ r.completion, r.acknowledgements = both true ∧
    id = completionId E r.request (E.tokenDigest r.token) (both true)

theorem Turn.runtime {n : Node F C V} {h' : Handle} {kind : Kind}
    (turned : Turn E host trust j n h kind n' h') (marked : n'.marker.isSome) :
    n'.runtime = n.runtime ∧ n'.marker = n.marker := by
  cases turned with
  | finalize => cases marked
  | restore => cases marked
  | _ => exact ⟨rfl, rfl⟩

namespace Site

theorem Step.runtime (stepped : Step E host s s')
    (before : ∀ i, (s.node i).marker.isSome → (s.node i).runtime = 5) (i : Fin 2)
    (marked : (s'.node i).marker.isSome) : (s'.node i).runtime = 5 := by
  obtain ⟨trust, allowed⟩ := stepped
  rcases allowed.view with ⟨call, _, _, view⟩ | ⟨_, _, _, _, _, _, _, rfl⟩
  · cases view i with
    | same node =>
      rw [node] at marked ⊢
      exact before i marked
    | prepare _ _ _ _ _ _ _ _ _ _ node => rw [node, Node.prepared]
    | turn _ _ _ _ _ _ _ _ turned node =>
      rw [node] at marked ⊢
      obtain ⟨same, marker⟩ := turned.runtime marked
      rw [same]
      exact before i (marker ▸ marked)
    | serve _ _ serves => simp [serves.marker] at marked
  · exact before i marked

theorem Coherent.certified_step (coherent : s.Coherent E older events p)
    (coherent' : s'.Coherent E older events' p') (stepped : Step E host s s') {q : Request}
    (certified : q ∈ (s.node i).certified) : q ∈ (s'.node i).certified := by
  rcases stepped.applied coherent (.inl certified) with kept | ⟨r, found, pruned, rfl⟩
  · exact kept
  · exact (coherent'.node i).applied r found pruned

theorem Coherent.writes (coherent : s.Coherent E older events p)
    (ran : jc.run E trust s.journal = .ok j) (layout : j.Layout E events' p') :
    Writes E s.journal jc j events events' := by
  obtain ⟨made, p'', layout', writes⟩ := jc.run_writes coherent.positive coherent.layout ran
  obtain ⟨rfl, _⟩ := layout'.unique layout
  exact writes

theorem Closed.step (closed : s.Closed E events) (coherent : s.Coherent E older events p)
    (coherent' : s'.Coherent E older events' p') (stepped : Step E host s s') :
    s'.Closed E events' := by
  obtain ⟨trust, allowed⟩ := id stepped
  rcases allowed.view with ⟨_, _, journal, _⟩ | ⟨_, jc, j, _, ran, guarded, _, rfl⟩
  · obtain ⟨rfl, _⟩ := coherent.layout.unique (journal ▸ coherent'.layout)
    exact ⟨fun i => stepped.runtime closed.runtime i, fun r live done i =>
      coherent.certified_step coherent' stepped (closed.certified r live done i), closed.derived⟩
  have writes := coherent.writes ran coherent'.layout
  refine ⟨closed.runtime, ?_, ?_⟩
  · intro r live done i
    obtain ⟨id, done⟩ := Option.isSome_iff_exists.mp done
    rcases writes.completed live done with before | ⟨decision, policy, rfl, request, _⟩
    · exact closed.certified r before (by simp [done]) i
    · obtain ⟨row, phase, named, _, rows⟩ := guarded
      rw [request, named]
      exact (coherent.node i).applied row (rows i) (phase ▸ rfl)
  · intro r live id done
    rcases writes.completed live done with before | ⟨decision, policy, rfl, request, digest, all⟩
    · exact closed.derived r before id done
    · obtain ⟨row, _, _, derived, _⟩ := guarded
      rw [request, ← digest]
      exact ⟨all, derived⟩

theorem Start.isClosed (start : s.Start E scope) : s.Closed E [] where
  runtime i marked := by simp [(start.idle i).1] at marked
  certified r live := nomatch live
  derived r live := nomatch live

theorem Start.closes {start : Site T F C V} (begun : start.Start E scope)
    (run : Later E host start s) :
    ∃ events p, s.Coherent E (fun i => (start.node i).certified) events p ∧ s.Closed E events :=
  begun.invariant id begun.isClosed
    (fun coherent coherent' closed => closed.step coherent coherent') run

end Site

/-! What holds under one trust, where the rows of a maintenance fit their table. -/

/-- The row fits in every phase up to its completion. -/
def Prepared.Fits (E : Env T) (r : Prepared) : Prop :=
  ∀ phase decision completion, E.bytes (E.encode
    { r with phase := phase, decision := decision, completion := completion }) ≤ 256 * 1024

/-- The row, against the journal and its node. -/
structure Prepared.Sound (E : Env T) (host : Host F C V) (trust : Trust) (j : Journal T)
    (events : List Event) (n : Node F C V) (r : Prepared) : Prop where
  fits : r.phase ≠ .aborting → r.Fits E
  bound : r.phase = .decided ∨ r.phase.pruned = true →
    ∃ q ∈ liveOf events, q.request = r.request ∧ r.decision = some (E.tokenDigest q.token)
  valid : r.phase.pruned = true → r.Valid E host trust n
  done : ∀ q ∈ liveOf events, q.request = r.request → q.completion.isSome →
    r.phase.pruned = true ∧ ∃ c, j.fetchCompleted E r.request trust permissive = .ok c ∧
      (r.phase = .complete → r.completion = some c.completion)

structure Site.Settled (E : Env T) (host : Host F C V) (trust : Trust) (s : Site T F C V)
    (events : List Event) : Prop where
  owned : ∀ i, (s.node i).Owned host
  owners : ∀ i h, s.handle i = some h →
    h.identity = (s.node i).identity ∧ h.role = (s.node i).role
  rows : ∀ i r, (s.node i).progress = some r → r.Sound E host trust s.journal events (s.node i)

/-- A maintenance is prepared with rows that fit. -/
def Roomy (E : Env T) (_ : Site T F C V) : Call → Prop
  | .preparePair _ plan request token _ _ => (Prepared.fresh plan request token).Fits E
  | _ => True

namespace Site

theorem fetch_bound {q : Request} {policy : Policy} {c : CommittedTransition}
    (layout : j.Layout E events p) (fetched : j.fetch E q trust policy = .ok c) :
    ∃ r ∈ liveOf events, r.request = q ∧ c.tokenDigest = E.tokenDigest r.token := by
  simp only [Journal.fetch, checked_ok, require_eq_ok] at fetched
  obtain ⟨history, read, _, _, _, r, head, same, _, committed⟩ := fetched
  obtain ⟨_, rfl⟩ := layout.read read
  exact ⟨r, effective_mem_liveOf layout.trail head, same, committed_tokenDigest committed⟩

/-- The policy only says whether the journal answers. -/
theorem fetchCompleted_permissive {q : Request} {policy : Policy} {c : CompletedTransition}
    (fetched : j.fetchCompleted E q trust policy = .ok c) :
    j.fetchCompleted E q trust permissive = .ok c := by
  simp only [Journal.fetchCompleted, Journal.fetch, bind_eq_ok] at fetched ⊢
  obtain ⟨committed, ⟨history, read, lost, whole, _, free, r, head, _, same, _, _, found⟩, rest⟩ :=
    fetched
  exact ⟨committed, ⟨history, read, lost, whole, (), free, r, head, (), same, (), rfl, found⟩, rest⟩

end Site

namespace Node

variable {n : Node F C V}

/-- An applied row that validates still does so with its completion, if it still fits. -/
theorem validatePending_completed {id : Id} (valid : r.Valid E host trust n)
    (phase : r.phase = .applied) (fits : r.Fits E) (nonzero : id ≠ zeroId) :
    ({ r with phase := .complete, completion := some id } : Prepared).Valid E host trust
      { n with progress := some { r with phase := .complete, completion := some id } } := by
  obtain ⟨v, historical, evident⟩ := valid.evident
  simp only [Prepared.evident, phase, decide_eq_true_eq] at evident
  obtain ⟨inspection, valid⟩ := valid
  refine ⟨inspection, fun authority again same => ?_⟩
  have checked := valid authority none (fun _ none => nomatch none)
  simp only [validatePending, run_ok] at checked ⊢
  obtain ⟨m, marked, r', progress, history, checkpoint, plan, v', evidence, recovery, seen, rfl⟩ :=
    checked
  simp only [checkProgress, checked_ok, queried_eq_ok] at progress
  obtain ⟨_, found, _, _, ⟨format, _⟩, plain, _, rfl⟩ := progress
  refine ⟨m, marked, _, ?_, ?_, checkpoint, ?_, v, ?_, ?_, seen, rfl⟩
  · simp only [checkProgress, run_ok, queried_eq_ok]
    exact ⟨_, rfl, ensure_eq_ok.mpr (fits ..), ensure_eq_ok.mpr same,
      ensure_eq_ok.mpr ⟨format, rfl⟩, ensure_eq_ok.mpr (plain.imp_right fun bare => ⟨bare.1, by simp⟩),
      ensure_eq_ok.mpr (.inl (by simp)), rfl⟩
  · simp only [checkHistory, checkLineage, phase, Phase.pruned] at history ⊢
    exact history
  · simp only [checkPlan, previousCertificate, phase, Phase.pruned] at plan ⊢
    exact plan
  · simp only [Prepared.checkEvidence, run_ok]
    refine ⟨v, historical, ensure_eq_ok.mpr ?_, rfl⟩
    simp [Prepared.evident, evident, nonzero]
  · simp only [checkRecovery, checkAnchor, phase, Phase.pruned, reduceCtorEq, or_self,
      if_false] at recovery ⊢
    exact recovery

end Node

namespace Site

namespace Settled

theorem open_row (settled : s.Settled E host trust events) (found : (s.node i).progress = some r)
    (early : r.phase.pruned = false) {q : Record} (live : q ∈ liveOf events)
    (request : q.request = r.request) : q.completion = none := by
  by_contra done
  have late := ((settled.rows i r found).done q live request (Option.isSome_iff_ne_none.mpr done)).1
  rw [early] at late
  cases late

theorem seen (settled : s.Settled E host trust events) (closed : s.Closed E events)
    (coherent : s.Coherent E older events p) {call : Option Call}
    (made : ∀ c ∈ call, Roomy E s c ∧ c.run E host trust s = .ok s')
    (view : View E host trust s s' call i) (found : (s'.node i).progress = some r) :
    r.Sound E host trust s.journal events (s'.node i) := by
  cases view with
  | same node =>
    rw [node] at found ⊢
    exact settled.rows i r found
  | prepare opened row fresh now writes named free absent checked paired node =>
    rw [node] at found ⊢
    obtain rfl : row = r := Option.some.inj found
    have phase : row.phase = .prepared := by rw [fresh]; rfl
    have fits : row.Fits E := fresh ▸ (made _ named).1
    refine ⟨fun _ => fits, by simp [phase, Phase.pruned], by simp [phase, Phase.pruned], ?_⟩
    intro q live request done
    have known := closed.certified q live done i
    rw [request] at known
    exact absurd known (Node.preflight_new checked)
  | serve free idle serves =>
    rw [serves.progress] at found
    cases found
  | turn h held c ran kind named n' h' turned node handle =>
    rw [node] at found ⊢
    cases turned with
    | again => exact settled.rows i r found
    | decide policy c fetched retained phase next row =>
      have before := (Node.validateRetained_eq_ok retained).1
      obtain ⟨q, live, request, digest⟩ := fetch_bound coherent.layout fetched
      obtain rfl : next = r := Option.some.inj found
      subst row
      refine ⟨fun _ => (settled.rows i _ before).fits (by simp [phase]),
        fun _ => ⟨q, live, request, by rw [digest]⟩, fun other => (by cases other), ?_⟩
      intro q live request done
      simp [settled.open_row before (phase ▸ rfl) live request] at done
    | apply policy c fetched retained phase segments certified next row random _ seen valid =>
      have before := (Node.validateRetained_eq_ok retained).1
      have sound := settled.rows i _ before
      obtain rfl : next = r := Option.some.inj found
      obtain ⟨inspection, r⟩ := seen
      obtain ⟨_, same, _⟩ := Node.validatePending_eq_ok valid
      obtain rfl := same _ rfl
      have valid : Prepared.Valid E host trust _ _ :=
        ⟨inspection, Node.validatePending_late valid (by simp [row])⟩
      subst row
      refine ⟨fun _ => sound.fits (by simp [phase]), fun _ => sound.bound (.inl phase), fun _ => valid, ?_⟩
      intro q live request done
      simp [settled.open_row before (phase ▸ rfl) live request] at done
    | complete policy c fetched retained phase next row =>
      have before := (Node.validateRetained_eq_ok retained).1
      have sound := settled.rows i _ before
      have pruned : h.prepared.phase.pruned = true := phase ▸ rfl
      obtain rfl : next = r := Option.some.inj found
      subst row
      have fits := sound.fits (by simp [phase])
      refine ⟨fun _ => fits, fun _ => sound.bound (.inr pruned), fun _ => ?_, fun q _ _ _ => ?_⟩
      · exact Node.validatePending_completed (sound.valid pruned) phase fits
          (Journal.fetchCompleted_nonzero fetched)
      · exact ⟨rfl, c, fetchCompleted_permissive fetched, fun _ => rfl⟩
    | finalize | restore => cases found
    | abort document token binds retained phase decided next row =>
      have before := (Node.validateRetained_eq_ok retained).1
      obtain rfl : next = r := Option.some.inj found
      subst row
      refine ⟨fun other => absurd rfl other, by simp [Phase.pruned], fun other => (by cases other), ?_⟩
      intro q live request done
      have early : h.prepared.phase.pruned = false := by
        rcases phase with phase | phase <;> rw [phase] <;> rfl
      simp [settled.open_row before early live request] at done

/-- An abort that the authority found applicable has both nodes aborting. -/
theorem aborting_of_guards (guarded : s.Guards E host trust jc) (aborts : Writes.Aborts s.journal jc)
    (i : Fin 2) : ∃ r, (s.node i).progress = some r ∧ r.phase = .aborting := by
  obtain ⟨document, token, now, policy, rfl, applicable⟩ := aborts
  obtain ⟨h, h', _, _, _, aborting⟩ := guarded
  obtain ⟨primary, secondary⟩ := aborting _ applicable
  have both : ∀ k, ∃ r, (s.node k).progress = some r ∧ r.phase = .aborting :=
    Fin.forall_fin_two.mpr ⟨Node.isAborting_row primary, Node.isAborting_row secondary⟩
  exact both i

/-- While a node is pending for a completed request, nothing moves the journal. -/
theorem journal_quiet (coherent : s.Coherent E older events p)
    (writes : Writes E s.journal jc j events events') (guarded : s.Guards E host trust jc)
    (found : (s.node i).progress = some r) (late : r.phase.pruned = true)
    {c : CompletedTransition}
    (fetched : s.journal.fetchCompleted E r.request trust permissive = .ok c) : j = s.journal := by
  have completed : ∀ front q, events = front ++ [.decided q] → q.completion ≠ none := by
    rintro front q rfl unfinished
    simp only [Journal.fetchCompleted, Journal.fetch, Env.committed, run_ok,
      require_eq_ok] at fetched
    obtain ⟨_, ⟨history, read, _, _, _, q', head, _, _, _, _, rfl⟩, _, id, done, _⟩ := fetched
    obtain ⟨_, rfl⟩ := coherent.layout.read read
    have effective := (trail_effective coherent.layout.trail).1
    rw [show p.effective = some q' from head] at effective
    simp only [liveOf_append, liveOf_singleton, Event.live?, Option.toList_some,
      List.getLast?_concat, Option.some.injEq] at effective
    rw [effective, unfinished] at done
    cases done
  cases writes with
  | stay => rfl
  | decide request token now policy =>
    obtain ⟨h, h', held, held', same, phase, _⟩ := guarded
    have both : ∀ k, ∃ g, s.handle k = some g ∧ g.prepared.phase = .prepared :=
      Fin.forall_fin_two.mpr ⟨⟨h, held, phase⟩, ⟨h', held', same ▸ phase⟩⟩
    obtain ⟨g, held, early⟩ := both i
    rw [(coherent.handle_row held found).2] at early
    rw [early] at late
    cases late
  | acknowledge decision member policy _ front q k unfinished =>
    exact absurd unfinished (completed front q rfl)
  | complete decision id policy _ front q request digest acknowledged unfinished =>
    exact absurd unfinished (completed front q rfl)
  | abort document token now policy _ certificate _ _ cancels applicable =>
    obtain ⟨r', found', phase⟩ :=
      aborting_of_guards guarded ⟨document, token, now, policy, rfl, applicable⟩ i
    obtain rfl := Option.mem_unique found found'
    rw [phase] at late
    cases late

variable (settled : s.Settled E host trust events)
include settled

theorem journal (coherent : s.Coherent E older events p) (ran : jc.run E trust s.journal = .ok j)
    (writes : Writes E s.journal jc j events events') (guarded : s.Guards E host trust jc) :
    ({ s with journal := j } : Site T F C V).Settled E host trust events' := by
  refine ⟨settled.owned, settled.owners, fun i r found => ?_⟩
  have sound := settled.rows i r found
  refine ⟨sound.fits, fun late => ?_, sound.valid, fun q live request done => ?_⟩
  · obtain ⟨q, live, request, decision⟩ := sound.bound late
    rcases writes.keeps live with ⟨q', live', same, token, _⟩ | aborts
    · exact ⟨q', live', same.trans request, token ▸ decision⟩
    · obtain ⟨r', found', phase⟩ := aborting_of_guards guarded aborts i
      obtain rfl := Option.mem_unique found found'
      rw [phase] at late
      simp [Phase.pruned] at late
  · obtain ⟨id, done⟩ := Option.isSome_iff_exists.mp done
    rcases writes.completed live done with before | ⟨decision, policy, rfl, named, _⟩
    · obtain ⟨late, c, fetched, proof⟩ := sound.done q before request (by simp [done])
      have same := journal_quiet coherent writes guarded found late fetched
      exact ⟨late, c, same ▸ fetched, proof⟩
    · obtain ⟨row, phase, asked, _, rows⟩ := guarded
      obtain rfl := Option.mem_unique found (rows i)
      obtain ⟨c, fetched, _⟩ := Journal.complete_fetched coherent.layout ran
      refine ⟨phase ▸ rfl, c, asked ▸ fetched, fun complete => ?_⟩
      rw [phase] at complete
      cases complete

theorem step (closed : s.Closed E events) (coherent : s.Coherent E older events p)
    (coherent' : s'.Coherent E older events' p') (allowed : Allowed E host trust (Roomy E) s s') :
    s'.Settled E host trust events' := by
  rcases allowed.view with ⟨call, made, journal, view⟩ | ⟨call, c, j, _, ran, guarded, _, rfl⟩
  · obtain ⟨rfl, _⟩ := coherent.layout.unique (journal ▸ coherent'.layout)
    refine ⟨fun i => ?_, fun i => (view i).owners (settled.owners i), fun i r found =>
      journal ▸ settled.seen closed coherent made (view i) found⟩
    rw [Node.Owned, (view i).owner.1]
    exact settled.owned i
  · exact settled.journal coherent ran (coherent.writes ran coherent'.layout) guarded

end Settled

theorem Start.settled (start : s.Start E scope) (owned : ∀ i, (s.node i).Owned host) :
    s.Settled E host trust [] where
  owned := owned
  owners _ _ held := (start.no_handle held).elim
  rows _ _ found := (start.no_row found).elim

theorem Start.settles {start : Site T F C V} (begun : start.Start E scope)
    (owned : ∀ i, (start.node i).Owned host)
    (run : Relation.ReflTransGen (Allowed E host trust (Roomy E)) start s) :
    ∃ events p, s.Coherent E (fun i => (start.node i).certified) events p ∧ s.Closed E events ∧
      s.Settled E host trust events :=
  begun.invariant (I := fun s events => s.Closed E events ∧ s.Settled E host trust events)
    Allowed.step ⟨begun.isClosed, begun.settled owned⟩ (fun coherent coherent' holds allowed =>
      ⟨holds.1.step coherent coherent' allowed.step,
        holds.2.step holds.1 coherent coherent' allowed⟩) run

theorem live_unique (trail : E.trail scope events = .ok p) {q q' : Record}
    (live : q ∈ liveOf events) (live' : q' ∈ liveOf events) (same : q.request = q'.request) :
    q = q' := by
  obtain ⟨d, inside, found⟩ := List.mem_filterMap.mp live
  obtain ⟨d', inside', found'⟩ := List.mem_filterMap.mp live'
  cases d with
  | decided r =>
    cases d' with
    | decided r' =>
      obtain rfl : r = q := Option.some.inj found
      obtain rfl : r' = q' := Option.some.inj found'
      have one := revision_injective trail inside inside' (congrArg (·.revision) same)
      exact Event.decided.inj one
    | cancelled r a => cases found'
    | skipped a => cases found'
  | cancelled r a => cases found
  | skipped a => cases found

namespace Settled

variable {i : Fin 2} {h : Handle} {r : Prepared} {q : Record}

theorem records (settled : s.Settled E host trust events) (coherent : s.Coherent E older events p)
    (held : s.handle i = some h) (found : (s.node i).progress = some r) (live : q ∈ liveOf events)
    (request : q.request = r.request) (done : q.completion.isSome) :
    ∃ n' h', (Call.recordComplete i fun _ => permissive).run E host trust s = .ok (s.put i (n', h')) ∧
      n'.progress = some h'.prepared ∧ h'.prepared.phase = .complete ∧
      h'.prepared.request = r.request := by
  obtain ⟨late, c, fetched, proof⟩ := (settled.rows i r found).done q live request done
  have valid := (settled.rows i r found).valid late
  obtain ⟨_, rfl⟩ := coherent.handle_row held found
  have run : ∀ after, (s.node i).recordComplete E host h s.journal trust (fun _ => permissive) =
      .ok after → (Call.recordComplete i fun _ => permissive).run E host trust s =
        .ok (s.put i after) := by
    intro after ran
    simp only [Call.run, bind_eq_ok, opened_eq_ok]
    exact ⟨h, held, after, ran, rfl⟩
  by_cases complete : h.prepared.phase = .complete
  · refine ⟨s.node i, h, run _ ?_, found, complete, rfl⟩
    simp only [Node.recordComplete, if_pos complete, bind_eq_ok]
    exact ⟨c, fetched, (), ensure_eq_ok.mpr (proof complete), rfl⟩
  · have phase : h.prepared.phase = .applied := by
      cases phase : h.prepared.phase <;> simp_all [Phase.pruned]
    obtain ⟨v, _, evident⟩ := valid.evident
    simp only [Prepared.evident, phase, decide_eq_true_eq] at evident
    let next : Prepared := { h.prepared with phase := .complete, completion := some c.completion }
    refine ⟨{ s.node i with progress := some next }, { h with prepared := next }, run _ ?_, rfl, rfl,
      rfl⟩
    simp only [Node.recordComplete, if_neg complete, Node.replaceProgress, bind_eq_ok]
    exact ⟨c, fetched, (), ensure_eq_ok.mpr ⟨phase, evident.2⟩, (),
      valid.retained (settled.owners i h held), (), ⟨c, fetched, ensure_eq_ok.mpr rfl⟩, rfl⟩

theorem finalizes (settled : s.Settled E host trust events) (coherent : s.Coherent E older events p)
    (held : s.handle i = some h) (found : (s.node i).progress = some r)
    (complete : r.phase = .complete) (live : q ∈ liveOf events) (request : q.request = r.request)
    (done : q.completion.isSome) :
    ∃ n' h', (Call.finalizeNode i fun _ => permissive).run E host trust s = .ok (s.put i (n', h')) ∧
      n'.marker = none := by
  have sound := settled.rows i r found
  obtain ⟨late, c, fetched, proof⟩ := sound.done q live request done
  obtain ⟨q', live', request', decision⟩ := sound.bound (.inr late)
  have valid := sound.valid late
  obtain ⟨open_, rfl⟩ := coherent.handle_row held found
  have digest : c.committed.tokenDigest = E.tokenDigest q'.token := by
    simp only [Journal.fetchCompleted, run_ok, pure_inj] at fetched
    obtain ⟨committed, fetched, _, id, _, rfl⟩ := fetched
    obtain ⟨q'', live'', request'', digest⟩ := fetch_bound coherent.layout fetched
    rw [digest, live_unique coherent.layout.trail live'' live' (request''.trans request'.symm)]
  have marked : ∃ marker, (s.node i).marker = some marker := by
    refine Option.ne_none_iff_exists'.mp fun absent => ?_
    rw [(coherent.node i).rows absent] at found
    cases found
  obtain ⟨marker, marked⟩ := marked
  refine ⟨{ s.node i with
    runtime := marker.previousRuntime
    store := { (s.node i).store with
      readiness := some (h.prepared.plan.localPlan h.role).checkpoint }
    segments := { (s.node i).segments with completion := some (1, c.committed.request.id,
      c.committed.tokenDigest, c.completion) }
    marker := none
    progress := none }, { h with finalized := true }, ?_, rfl⟩
  simp only [Call.run, bind_eq_ok, opened_eq_ok]
  refine ⟨h, held, _, ?_, rfl⟩
  rw [Node.finalizeNode, if_neg (by simp [open_])]
  simp only [bind_eq_ok, queried_eq_ok, pure_inj]
  exact ⟨(), ensure_eq_ok.mpr ⟨complete, by simp [proof complete]⟩, (),
    valid.retained (settled.owners i h held), c, fetched, (),
    ensure_eq_ok.mpr ⟨(proof complete).symm, by rw [digest, decision]⟩, marker, marked, rfl⟩

theorem carries (settled : s.Settled E host trust events) (closed : s.Closed E events)
    (coherent : s.Coherent E older events p) (held : s.handle i = some h)
    (found : (s.node i).progress = some r) (live : q ∈ liveOf events)
    (request : q.request = r.request) (done : q.completion.isSome) :
    ∃ s' s'', (Call.recordComplete i fun _ => permissive).run E host trust s = .ok s' ∧
      (Call.finalizeNode i fun _ => permissive).run E host trust s' = .ok s'' ∧
      (s''.node i).marker = none := by
  obtain ⟨n', h', recorded, row, complete, same⟩ := settled.records coherent held found live request done
  have allowed : Allowed E host trust (Roomy E) s (s.put i (n', h')) :=
    .inl ⟨.recordComplete i fun _ => permissive, trivial, recorded⟩
  obtain ⟨events', p', coherent', _⟩ := coherent.step allowed.step
  have settled' := settled.step closed coherent coherent' allowed
  obtain ⟨rfl, _⟩ := coherent'.layout.unique coherent.layout
  have here : (s.put i (n', h')).node i = n' := Function.update_self ..
  have mine : (s.put i (n', h')).handle i = some h' := Function.update_self ..
  obtain ⟨n'', h'', finalized, cleared⟩ :=
    settled'.finalizes coherent' mine (here.symm ▸ row) complete live (request.trans same.symm) done
  refine ⟨_, _, recorded, finalized, ?_⟩
  have last : ((s.put i (n', h')).put i (n'', h'')).node i = n'' := Function.update_self ..
  rw [last]
  exact cleared

end Settled

/-- Only the two ends of a maintenance take the marker of a node away. -/
theorem Step.unmarked (stepped : Step E host s s') (marked : (s.node i).marker.isSome)
    (cleared : (s'.node i).marker = none) :
    ∃ trust policy, (Call.finalizeNode i policy).run E host trust s = .ok s' ∨
      (Call.finishAbort i policy).run E host trust s = .ok s' := by
  have kept : (s'.node i).marker ≠ (s.node i).marker := by
    intro same
    simp [← same, cleared] at marked
  obtain ⟨trust, allowed⟩ := stepped
  rcases allowed.view with ⟨call, made, _, view⟩ | ⟨_, _, _, _, _, _, _, rfl⟩
  · cases view i with
    | same node => exact absurd (congrArg Node.marker node) kept
    | prepare _ _ _ _ _ _ _ _ _ _ node => simp [node, Node.prepared] at cleared
    | serve _ idle => simp [idle] at marked
    | turn h held c called kind named n' h' turned node =>
      have ran := (made c called).2
      rw [node] at kept
      cases turned with
      | finalize =>
        cases c with
        | finalizeNode k policy =>
          obtain rfl : k = i := (Prod.mk.inj (Option.some.inj named)).1
          exact ⟨trust, policy, .inl ran⟩
        | _ => cases named
      | restore =>
        cases c with
        | finishAbort k policy =>
          obtain rfl : k = i := (Prod.mk.inj (Option.some.inj named)).1
          exact ⟨trust, policy, .inr ran⟩
        | _ => cases named
      | _ => exact absurd rfl kept
  · exact absurd rfl kept

end Site

/-- The journal has completed the request: both nodes acknowledged it, and the identifier
is the one derived from it. -/
def Completed (E : Env T) (j : Journal T) (q : Request) : Prop :=
  ∃ r ∈ j.live E, r.request = q ∧ r.acknowledgements = both true ∧
    r.completion = some (completionId E q (E.tokenDigest r.token) (both true))

/-- A pending node refuses its ordinary calls until it is finalized under a completion of
the journal that both nodes have applied, or restored under a recorded abort; and a
completion is carried to every node still pending for it. -/
theorem reopens_at_proven_end [DecidableEq C] {scope : JournalScope} {start : Site T F C V}
    (begun : start.Start E scope) (run : Later E host start s) :
    (∀ i, (s.node i).marker.isSome → ∀ services opened random service n',
      (s.node i).serve E host services opened random service ≠ .ok n') ∧
    (∀ i s', (s.node i).marker.isSome → Step E host s s' → (s'.node i).marker = none →
      ∃ trust policy, (Call.finalizeNode i policy).run E host trust s = .ok s' ∨
        (Call.finishAbort i policy).run E host trust s = .ok s') ∧
    (∀ trust i policy h s', s.handle i = some h → h.finalized = false →
      (Call.finalizeNode i policy).run E host trust s = .ok s' →
      Completed E s.journal h.prepared.request ∧
        ∀ k, h.prepared.request ∈ (s.node k).certified) ∧
    (∀ trust i policy h s', s.handle i = some h → h.finalized = false →
      (Call.finishAbort i policy).run E host trust s = .ok s' →
      Aborted E s.journal h.prepared.request) ∧
    ∀ trust, (∀ i, (start.node i).Owned host) →
      Relation.ReflTransGen (Allowed E host trust (Roomy E)) start s →
      ∀ q, (∃ r ∈ s.journal.live E, r.request = q ∧ r.completion.isSome) →
      ∀ i r, (s.node i).progress = some r → r.request = q →
      (s.handle i = none → ∀ authority, ∃ s',
        (Call.openExisting i (s.node i).identity q authority).run E host trust s = .ok s') ∧
      ∀ h, s.handle i = some h → ∃ s' s'',
        (Call.recordComplete i fun _ => permissive).run E host trust s = .ok s' ∧
        (Call.finalizeNode i fun _ => permissive).run E host trust s' = .ok s'' ∧
        (s''.node i).marker = none := by
  obtain ⟨events, p, coherent, closed⟩ := begun.closes run
  refine ⟨?_, fun i s' marked stepped cleared => stepped.unmarked marked cleared, ?_, ?_, ?_⟩
  · intro i marked services opened random service n' served
    exact Node.serve_runtime served (closed.runtime i marked)
  · intro trust i policy h s' held live ran
    simp only [Call.run, run_ok, opened_eq_ok, held, Option.some.injEq] at ran
    obtain ⟨_, rfl, after, finalized, _⟩ := ran
    rw [Node.finalizeNode, if_neg (by simp [live])] at finalized
    simp only [run_ok] at finalized
    obtain ⟨_, _, c, fetched, _⟩ := finalized
    obtain ⟨r, mem, request, done⟩ := fetchCompleted_completed coherent.layout fetched
    obtain ⟨id, named⟩ := Option.isSome_iff_exists.mp done
    obtain ⟨all, derived⟩ := closed.derived r mem id named
    refine ⟨⟨r, coherent.layout.live_eq ▸ mem, request, all, ?_⟩, fun k => ?_⟩
    · rw [named, derived, request]
    · exact request ▸ closed.certified r mem done k
  · intro trust i policy h s' held live ran
    simp only [Call.run, run_ok, opened_eq_ok, held, Option.some.injEq] at ran
    obtain ⟨_, rfl, after, finished, _⟩ := ran
    exact coherent.aborted_of_finish held live finished
  · rintro trust owned allowed _ ⟨q, mem, rfl, done⟩ i r found request
    obtain ⟨events, p, coherent, closed, settled⟩ := begun.settles owned allowed
    rw [coherent.layout.live_eq] at mem
    refine ⟨fun free authority => ?_, fun h held => ?_⟩
    · have sound := settled.rows i r found
      have valid := sound.valid (sound.done q mem request.symm done).1
      obtain ⟨h, opened, _⟩ := valid.opens (settled.owned i) authority
      refine ⟨{ s with handle := Function.update s.handle i (some h) }, ?_⟩
      simp only [Call.run, bind_eq_ok]
      exact ⟨(), ensure_eq_ok.mpr (by simp [free]), h, request ▸ opened, rfl⟩
    · exact settled.carries closed coherent held found mem request.symm done

/-- An open handle shows its node's row, a certificate that was not there at the start stands
on a live record that is completed or holds its node pending, and what is completed is
certified on both nodes. -/
theorem certificates_backed {scope : JournalScope} {start : Site T F C V}
    (begun : start.Start E scope) (run : Later E host start s) :
    (∀ i h, s.handle i = some h →
      (s.node i).progress = if h.finalized then none else some h.prepared) ∧
    (∀ i, ∀ q ∈ (s.node i).certified, q ∈ (start.node i).certified ∨
      ∃ r ∈ s.journal.live E, r.request = q ∧ (r.completion.isSome ∨
        ∃ row, (s.node i).progress = some row ∧ row.phase.pruned = true ∧ row.request = q)) ∧
    ∀ r ∈ s.journal.live E, r.completion.isSome → ∀ i, r.request ∈ (s.node i).certified := by
  obtain ⟨events, p, coherent, closed⟩ := begun.closes run
  rw [coherent.layout.live_eq]
  exact ⟨fun i => (coherent.node i).cached, fun i => (coherent.node i).live, closed.certified⟩

namespace Sample

open Recovery.Sample (trusted)

/-- Both nodes apply the first request, the journal completes it, and the first node is
finalized. -/
def halfFinalized : List Call :=
  opening ++ [.decidePrepared 0 asks, .recordDecided 0 asks, .recordDecided 1 asks,
    .applyDecided 1 asks zeroId, .applyDecided 0 asks zeroId, .acknowledgeApplied 0 asks,
    .acknowledgeApplied 1 asks, .completeAuthority asks, .recordComplete 0 asks,
    .finalizeNode 0 asks]

/-- The second node is still pending for the completed request, with its handle open. -/
def Remaining (s : UnitSite) : Prop :=
  (∃ r ∈ s.journal.live siteEnv, r.request = request 1 ∧ r.completion.isSome) ∧
    (s.node 0).marker = none ∧ (s.handle 1).isSome ∧ (s.node 1).marker.isSome ∧
    (s.node 1).progress.any (·.request = request 1)

instance (s : UnitSite) : Decidable (Remaining s) :=
  inferInstanceAs (Decidable (_ ∧ _))

theorem halfFinalized_remaining : (proceed halfFinalized site).toOption.any (Remaining ·) = true := by
  decide +kernel

theorem certificates_backed_completed : ∃ s, Later siteEnv siteHost site s ∧
    ∃ r ∈ s.journal.live siteEnv, ∀ i, r.request ∈ (s.node i).certified := by
  obtain ⟨s, ran, remaining⟩ := exists_of_any halfFinalized_remaining
  have later := proceed_later ran
  obtain ⟨⟨r, live, _, done⟩, _⟩ : Remaining s := of_decide_eq_true remaining
  exact ⟨s, later, r, live, (certificates_backed site_start later).2.2 r live done⟩

theorem halfFinalized_roomy : ∀ c ∈ halfFinalized, ∀ s : UnitSite,
    Roomy siteEnv s c := by
  intro c mem s
  simp only [halfFinalized, opening, List.cons_append, List.nil_append, List.mem_cons,
    List.not_mem_nil, or_false] at mem
  rcases mem with rfl | rfl | rfl | rfl | rfl | rfl | rfl | rfl | rfl | rfl | rfl | rfl | rfl
  · intro phase decision completion
    exact show 1 ≤ 256 * 1024 by decide
  all_goals trivial

/-- The second node refuses every ordinary call, and the completion is carried to it. -/
theorem reopens_at_proven_end_second : ∃ s, Later siteEnv siteHost site s ∧ Remaining s ∧
    (∀ services opened random service n',
      (s.node 1).serve siteEnv siteHost services opened random service ≠ .ok n') ∧
    ∃ s' s'', (Call.recordComplete 1 fun _ => permissive).run siteEnv siteHost trusted s = .ok s' ∧
      (Call.finalizeNode 1 fun _ => permissive).run siteEnv siteHost trusted s' = .ok s'' ∧
      (s''.node 1).marker = none := by
  obtain ⟨s, ran, remaining⟩ := exists_of_any halfFinalized_remaining
  have remaining : Remaining s := of_decide_eq_true remaining
  have later := proceed_later ran
  obtain ⟨refused, _, _, _, carried⟩ := reopens_at_proven_end site_start later
  obtain ⟨completed, _, held, marked, pending⟩ := id remaining
  obtain ⟨h, held⟩ := Option.isSome_iff_exists.mp held
  obtain ⟨r, found, named⟩ := (Option.any_eq_true _ _).mp pending
  have owned : ∀ i, (site.node i).Owned siteHost := by
    unfold Node.Owned
    decide +kernel
  refine ⟨s, later, remaining, refused 1 marked, ?_⟩
  exact (carried trusted owned (proceed_allowed halfFinalized_roomy ran) (request 1) completed 1 r
    found (of_decide_eq_true named)).2 h held

end Sample

end TerrapiVault.Maintenance
