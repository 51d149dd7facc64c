import TerrapiVault.Maintenance.Restoring

/-! An abort that binds a node can still be recorded, if the call that binds the node asks
the journal and the peer what the source does not ask. While a node is bound, the journal
moves by that abort alone. -/
namespace TerrapiVault.Recovery

open Replication (ensure_eq_ok)

variable {T : Type → Type} {E : Env T} {trust : Trust} {events : List Event} {p : Position}
  {j : Journal T} {a : MaintenanceAbort}

namespace Journal

/-- The current record is the request's, decided and not completed. -/
def HoldsOpen (E : Env T) (trust : Trust) (j : Journal T) (q : Request) : Prop :=
  ∃ history r, j.read E trust = .ok history ∧ history.head = some r ∧ r.request = q ∧
    r.completion = none

/-- A first abort of this document finds its target and its place. -/
structure Accepts (E : Env T) (trust : Trust) (j : Journal T) (a : MaintenanceAbort) : Prop where
  target : ∃ history, j.read E trust = .ok history ∧
    history.abortAt a.abortedRevision = none ∧ abortTarget E history a = .ok () ∧
    history.aborts.length < maxAbortRows
  root : j.successorParentExists = false
  whole : j.lossRecordExists E trust = .ok false
  binds : j.scope.BindsAbort a
  marked : ∃ marked, j.markJournalFormatTwo E = .ok marked

theorem Accepts.abort (accepts : j.Accepts E trust a) (layout : j.Layout E events p)
    (positive : 0 < j.scope.initialRevision) {token : String} {now : ℕ} {certificate : Id}
    (policy : Policy) (issued : E.verifyAbortIssuance token trust a now = .ok certificate)
    (fits : E.bytes (E.encode (⟨2, a, token, certificate⟩ : AbortRecord)) ≤ maxRecord)
    (continues : ∀ ask r, policy.continuityOf ask j.scope r = .ok ())
    (applicable : policy.abortApplicable j.scope a = .ok ()) :
    ∃ after, j.abort E a token now trust policy = .ok after := by
  obtain ⟨history, read, first, target, room⟩ := accepts.target
  obtain ⟨marked, mark⟩ := accepts.marked
  obtain ⟨_, rfl⟩ := layout.read read
  obtain ⟨_, _, _, _, _, _, _, _, _, below⟩ :=
    abortTarget_effect (a := ⟨2, a, token, certificate⟩) layout positive target
  have inserted := insertRow_last (E.row a.abortedRevision ⟨2, a, token, certificate⟩) below
  have historical : E.verifyAbortHistorical token trust a = .ok certificate :=
    Env.verifyDocument_historical issued
  obtain ⟨_, opened, _, _, valid, _⟩ := Env.verifyDocument_eq_ok issued
  have short : token.utf8ByteSize ≤ maxToken := by
    simp only [Env.openToken, checked_ok] at opened
    obtain ⟨_, _, short, _⟩ := opened
    exact short
  have saved : j.saveAbort E ⟨2, a, token, certificate⟩ = .ok { marked with
      aborts := some (j.aborts.getD [] ++ [E.row a.abortedRevision ⟨2, a, token, certificate⟩]) } := by
    simp only [saveAbort, bind_eq_ok, inserted, Except.ok.injEq, pure_eq]
    exact ⟨(), ensure_eq_ok.mpr fits, marked, mark, _, rfl, rfl⟩
  have committed : E.committedAbort ⟨2, a, token, certificate⟩ trust =
      .ok ⟨a, token, E.tokenDigest token, certificate⟩ := by
    simp only [Env.committedAbort, run_ok]
    exact ⟨certificate, historical, ensure_eq_ok.mpr rfl, rfl⟩
  have made : ∃ after, j.abortNew E (p.history j.scope events) a token now trust policy =
      .ok after := by
    simp only [abortNew, run_ok]
    exact ⟨_, target, ensure_eq_ok.mpr room, applicable, certificate, issued,
      continues .., _, saved, _, committed, rfl⟩
  obtain ⟨after, made⟩ := made
  refine ⟨after, ?_⟩
  simp only [Journal.abort, run_ok]
  refine ⟨valid, ensure_eq_ok.mpr short, _, read, ensure_eq_ok.mpr accepts.root, false,
    accepts.whole, ensure_eq_ok.mpr rfl, ensure_eq_ok.mpr accepts.binds,
    continues .., ?_⟩
  rw [first]
  exact made

end Journal

end TerrapiVault.Recovery

namespace TerrapiVault.Maintenance

open Replication (ensure_eq_ok)
open Recovery

variable {T : Type → Type} {E : Env T} {F C V : Type} {host : Host F C V} {trust : Trust}
  {j : Journal T} {i : Fin 2} {h : Handle} {n' : Node F C V}

/-- The journal looks at the fields that repeat the request and at the flag. -/
theorem accepts_rebound {a b : MaintenanceAbort} {q : Request} (accepts : j.Accepts E trust a)
    (binds : BindsAbort E a q) (binds' : BindsAbort E b q) (decided : b.decided = a.decided) :
    j.Accepts E trust b := by
  obtain ⟨⟨history, read, first, target, room⟩, root, whole, within, marked⟩ := accepts
  obtain ⟨request, id, revision, authority, install, region, scope, schema, membership, anchor⟩ :=
    binds
  obtain ⟨request', id', revision', authority', install', region', scope', schema', membership',
    anchor'⟩ := binds'
  have target' : Journal.abortTarget E history b = Journal.abortTarget E history a := by
    simp only [Journal.abortTarget, Env.decidedAbort, decided, request, request', id, id', revision,
      revision']
  refine ⟨⟨history, read, ?_, target'.trans target, room⟩, root, whole, ?_, marked⟩
  · rw [revision', ← revision]
    exact first
  · rw [JournalScope.BindsAbort, install, region, scope, schema, membership, anchor,
      authority] at within
    rw [JournalScope.BindsAbort, install', region', scope', schema', membership', anchor',
      authority']
    exact within

/-- The row `begin_abort` writes. -/
def Prepared.aborting (E : Env T) (r : Prepared) (abort : MaintenanceAbort) (token : String) :
    Prepared :=
  { r with format := 2, phase := .aborting, abort := some (abortLocal E abort token) }

/-- The row of a peer that can still abort with this document. -/
def Prepared.Follows (r : Prepared) (q : Request) (abort : MaintenanceAbort) : Prop :=
  r.request = q ∧ r.phase.pruned = false ∧
    (r.phase = .aborting → ∀ b ∈ r.abort, b.abortId = abort.id ∧ b.decided = abort.decided)

theorem Paired.congr {node node' : Fin 2 → Node F C V} (paired : Paired node)
    (same : ∀ k, (node' k).identity = (node k).identity ∧ (node' k).role = (node k).role) :
    Paired node' := by
  rw [Paired, (same 0).1, (same 0).2, (same 1).1, (same 1).2]
  exact paired

namespace Node

variable {n : Node F C V} {h : Handle} {abort : MaintenanceAbort} {token : String}

/-- A row that validates still does so as an aborting one, if it still fits. -/
theorem validatePending_begun (retained : n.validateRetained E host h trust = .ok ())
    (phase : h.prepared.phase = .prepared ∨ h.prepared.phase = .decided)
    (decided : abort.decided = true ↔ h.prepared.phase = .decided)
    (fits : E.bytes (E.encode (h.prepared.aborting E abort token)) ≤ 256 * 1024) :
    ∃ inspection, ({ n with progress := some (h.prepared.aborting E abort token) } :
      Node F C V).validatePending E host h.binding h.prepared.request trust none =
        .ok (inspection, h.prepared.aborting E abort token) := by
  obtain ⟨inspection, valid⟩ := validateRetained_pending retained
  simp only [validatePending, run_ok] at valid
  obtain ⟨m, marked, r', progress, history, checkpoint, plan, v, evidence, recovery, seen, rfl⟩ :=
    valid
  have unpruned : h.prepared.phase.pruned = (h.prepared.aborting E abort token).phase.pruned := by
    rcases phase with phase | phase <;> rw [phase] <;> rfl
  simp only [Prepared.checkEvidence, checked_ok] at evidence
  obtain ⟨v, historical, evident, rfl⟩ := evidence
  have proof : h.prepared.completion = none ∧
      h.prepared.decision = if abort.decided = true then some v.tokenDigest else none := by
    rcases phase with phase | phase <;> simp only [Prepared.evident, phase] at evident decided <;>
      simp_all
  have row : ({ n with progress := some (h.prepared.aborting E abort token) } :
      Node F C V).checkProgress E h.prepared.request none =
        .ok (h.prepared.aborting E abort token) := by
    have issued : h.prepared.decision.isSome = abort.decided := by
      rw [proof.2]
      cases abort.decided <;> rfl
    simp only [checkProgress, run_ok, queried_eq_ok]
    exact ⟨_, rfl, ensure_eq_ok.mpr fits, ensure_eq_ok.mpr (by simp),
      ensure_eq_ok.mpr ⟨.inr rfl, rfl⟩, ensure_eq_ok.mpr (.inl (by simp [Prepared.aborting])),
      ensure_eq_ok.mpr (.inr ⟨rfl, proof.1, _, rfl, issued⟩), rfl⟩
  simp only [validatePending, run_ok]
  refine ⟨⟨h.binding.role, h.binding.identity, checkpoint, n.store.base⟩, m, marked, _, row, ?_,
    checkpoint, ?_, v, ?_, ?_, rfl, rfl⟩
  · simp only [checkHistory, checkLineage, ← unpruned]
    exact history
  · simp only [checkPlan, previousCertificate, ← unpruned]
    exact plan
  · simp only [Prepared.checkEvidence, run_ok]
    refine ⟨v, historical, ensure_eq_ok.mpr ?_, rfl⟩
    simp [Prepared.evident, Prepared.aborting, abortLocal, proof]
  · simp only [checkRecovery, run_ok] at recovery ⊢
    obtain ⟨found, known, active, stored, generation, anchored, rest⟩ := recovery
    refine ⟨found, known, active, stored, generation, ?_, rest⟩
    simp only [checkAnchor, Prepared.aborting, reduceCtorEq, or_self, if_false] at anchored ⊢
    split_ifs with certificates
    · rfl
    · rw [if_neg certificates] at anchored
      simp only [unpruned] at anchored
      exact anchored

end Node

namespace Site

variable {s s' : Site T F C V} {events events' : List Event} {p p' : Position}
  {older : Fin 2 → List Request}

/-- What `begin_abort` would have to ask: the journal accepts the abort, its flag is the
journal's, and the peer is pending for the same request and not past its decision. -/
structure Ready (E : Env T) (trust : Trust) (s : Site T F C V) (i : Fin 2) (q : Request)
    (abort : MaintenanceAbort) : Prop where
  accepts : s.journal.Accepts E trust abort
  flag : abort.decided = true ↔ s.journal.HoldsOpen E trust q
  peer : ∀ k, k ≠ i → ∃ r, (s.node k).progress = some r ∧ r.Follows q abort

/-- Nothing is prepared again once its abort is recorded, no node is cut while its peer is
aborting, and an abort is begun only where it is ready and its row fits. -/
def Guarded (E : Env T) (trust : Trust) (s : Site T F C V) : Call → Prop
  | .preparePair _ _ request _ _ _ => ¬Aborted E s.journal request
  | .applyDecided i _ _ => ∀ k, k ≠ i → ∀ r, (s.node k).progress = some r → r.phase ≠ .aborting
  | .beginAbort i abort token _ => ∀ r, (s.node i).progress = some r → r.phase ≠ .aborting →
      s.Ready E trust i r.request abort ∧
        E.bytes (E.encode (r.aborting E abort token)) ≤ 256 * 1024
  | _ => True

/-- The row is bound to a document that is still ready. -/
def BoundReady (E : Env T) (trust : Trust) (s : Site T F C V) (i : Fin 2) (r : Prepared) : Prop :=
  ∃ abort bound, r.abort = some bound ∧ bound.abortId = abort.id ∧
    bound.decided = abort.decided ∧ BindsAbort E abort r.request ∧ s.Ready E trust i r.request abort

/-- What every site of such a run satisfies, beside `Coherent`. -/
structure Recordable (E : Env T) (host : Host F C V) (trust : Trust) (s : Site T F C V) : Prop where
  paired : ∀ i r, (s.node i).progress = some r → Paired s.node
  owners : ∀ i h, s.handle i = some h →
    h.identity = (s.node i).identity ∧ h.role = (s.node i).role
  valid : ∀ i r, (s.node i).progress = some r → r.phase = .aborting →
    r.Valid E host trust (s.node i)
  recorded : ∀ i r, (s.node i).progress = some r → Aborted E s.journal r.request →
    r.phase = .aborting ∧ ∀ b ∈ r.abort, ∃ a ∈ s.journal.abortRecords E,
      Names E a.abort r.request ∧ a.abort.id = b.abortId
  ready : ∀ i r, (s.node i).progress = some r → r.phase = .aborting →
    ¬Aborted E s.journal r.request → s.BoundReady E trust i r

namespace Recordable

/-- A row that follows a bound one still does after the step: its node is not cut, and binds
itself to the same document. -/
theorem peer {k : Fin 2} {q : Request} {abort : MaintenanceAbort} {call : Option Call}
    (coherent : s.Coherent E older events p) (guarded : ∀ c ∈ call, s.Guarded E trust c)
    (view : View E host trust s s' call k) (other : k ≠ i)
    (mine : ∀ c ∈ call, ∀ kind, c.turn? = some (k, kind) → ¬Aborted E s.journal q ∧
      ∃ r bound, (s.node i).progress = some r ∧ r.phase = .aborting ∧ r.abort = some bound ∧
        bound.abortId = abort.id ∧ bound.decided = abort.decided)
    (before : ∃ row, (s.node k).progress = some row ∧ row.Follows q abort) :
    ∃ row, (s'.node k).progress = some row ∧ row.Follows q abort := by
  obtain ⟨row, stored, follows⟩ := before
  cases view with
  | same node => exact ⟨row, node ▸ stored, follows⟩
  | prepare _ _ _ _ _ _ _ idle | serve _ idle =>
    rw [(coherent.node k).rows idle] at stored
    cases stored
  | turn h held c made kind named n' h' turned node handle =>
    obtain ⟨unrecorded, r, bound, there, aborting, kept, id, decided⟩ := mine c made kind named
    rw [node]
    cases turned with
    | again => exact ⟨row, stored, follows⟩
    | decide policy c fetched retained phase next made =>
      obtain rfl := Option.mem_unique (Node.validateRetained_eq_ok retained).1 stored
      exact ⟨next, rfl, made ▸ follows.1, by simp [made, Phase.pruned], by simp [made]⟩
    | apply =>
      obtain ⟨asks, random, rfl⟩ : ∃ asks random, c = .applyDecided k asks random := by
        cases c <;> simp_all [Call.turn?]
      exact absurd aborting (guarded _ made i other.symm r there)
    | complete policy c fetched retained phase | finalize policy c fetched retained phase =>
      obtain rfl := Option.mem_unique (Node.validateRetained_eq_ok retained).1 stored
      simp [phase, Phase.pruned, Prepared.Follows] at follows
    | restore policy c fetched retained phase proof =>
      obtain rfl := Option.mem_unique (Node.validateRetained_eq_ok retained).1 stored
      obtain ⟨b, mem, revision⟩ := proof
      exact absurd (follows.1 ▸ coherent.aborted_of_fetch fetched
        (revision.trans ((coherent.node k).bound _ stored b mem))) unrecorded
    | abort document token binds retained phase decided' next row =>
      obtain rfl := Option.mem_unique (Node.validateRetained_eq_ok retained).1 stored
      obtain ⟨now, rfl⟩ : ∃ now, c = .beginAbort k document token now := by
        cases c <;> simp_all [Call.turn?]
      obtain ⟨ready, _⟩ := guarded _ made _ stored (by rcases phase with phase | phase <;> simp [phase])
      obtain ⟨r', there', follows'⟩ := ready.peer i other.symm
      obtain rfl := Option.mem_unique there there'
      obtain ⟨id', same⟩ := follows'.2.2 aborting bound kept
      subst row
      refine ⟨_, rfl, follows.1, rfl, fun _ b mem => ?_⟩
      obtain rfl := Option.some.inj mem
      exact ⟨id'.symm.trans id, same.symm.trans decided⟩

variable (recordable : s.Recordable E host trust)
include recordable

theorem seen {call : Option Call} {r : Prepared} (guarded : ∀ c ∈ call, s.Guarded E trust c)
    (view : View E host trust s s' call i) (found : (s'.node i).progress = some r) :
    Paired s.node ∧ (r.phase = .aborting → r.Valid E host trust (s'.node i)) ∧
      (Aborted E s.journal r.request → r.phase = .aborting ∧ ∀ b ∈ r.abort,
        ∃ a ∈ s.journal.abortRecords E, Names E a.abort r.request ∧ a.abort.id = b.abortId) ∧
      (r.phase = .aborting → ¬Aborted E s.journal r.request → s.BoundReady E trust i r ∧
        ∀ c ∈ call, ∀ k kind, k ≠ i → c.turn? = some (k, kind) → (s.node i).progress = some r) := by
  have old (before : (s.node i).progress = some r) := And.intro (recordable.recorded i r before)
    fun phase unrecorded => And.intro (recordable.ready i r before phase unrecorded)
      fun (c : Call) (_ : c ∈ call) (k : Fin 2) (kind : Kind) (_ : k ≠ i)
        (_ : c.turn? = some (k, kind)) => before
  cases view with
  | same node =>
    rw [node] at found ⊢
    exact ⟨recordable.paired i r found, recordable.valid i r found, old found⟩
  | prepare opened row fresh now writes named closed absent checked paired node =>
    rw [node] at found
    obtain rfl : row = r := Option.some.inj found
    have early : row.phase ≠ .aborting := by
      rw [fresh]
      simp [Prepared.fresh]
    exact ⟨paired, fun phase => absurd phase early, fun aborted => absurd aborted (guarded _ named),
      fun phase => absurd phase early⟩
  | serve closed idle serves =>
    rw [serves.progress] at found
    cases found
  | turn h held c made kind named n' h' turned node handle =>
    rw [node] at found ⊢
    have rewritten (before : (s.node i).progress = some h.prepared)
        (request : r.request = h.prepared.request) (early : h.prepared.phase ≠ .aborting)
        (aborted : Aborted E s.journal r.request) : r.phase = .aborting ∧ ∀ b ∈ r.abort,
          ∃ a ∈ s.journal.abortRecords E, Names E a.abort r.request ∧ a.abort.id = b.abortId :=
      absurd (recordable.recorded i _ before (request ▸ aborted)).1 early
    cases turned with
    | again => exact ⟨recordable.paired i r found, recordable.valid i r found, old found⟩
    | decide policy c fetched retained phase next row | complete policy c fetched retained phase next row
      | apply policy c fetched retained phase segments certified next row =>
      have before := (Node.validateRetained_eq_ok retained).1
      obtain rfl : next = r := Option.some.inj found
      exact ⟨recordable.paired i _ before, by simp [row],
        rewritten before (row ▸ rfl) (by simp [phase]), by simp [row]⟩
    | finalize | restore => cases found
    | abort document token binds retained phase decided next row =>
      have before := (Node.validateRetained_eq_ok retained).1
      have early : h.prepared.phase ≠ .aborting := by
        rcases phase with phase | phase <;> simp [phase]
      obtain ⟨now, rfl⟩ : ∃ now, c = .beginAbort i document token now := by
        cases c <;> simp_all [Call.turn?]
      obtain ⟨ready, fits⟩ := guarded _ made _ before early
      obtain rfl : next = h.prepared.aborting E document token := row
      obtain rfl := Option.some.inj found
      refine ⟨recordable.paired i _ before, fun _ => ?_, rewritten before rfl early, fun _ _ =>
        ⟨⟨document, _, rfl, rfl, rfl, binds, ready⟩, fun c called k kind other turn => ?_⟩⟩
      · obtain ⟨inspection, valid⟩ := Node.validatePending_begun retained phase decided fits
        exact ⟨inspection, Node.validatePending_late valid (by simp [Prepared.aborting])⟩
      · obtain rfl := Option.mem_unique made called
        exact absurd (Prod.mk.inj (Option.some.inj turn)).1.symm other

variable (coherent : s.Coherent E older events p)
include coherent

/-- While a row is bound and its abort not recorded, only that abort moves the journal. -/
theorem journal_quiet {c : JournalCall} (ran : c.run E trust s.journal = .ok j)
    (guarded : s.Guards E host trust c) (layout : j.Layout E events' p') {r : Prepared}
    (found : (s.node i).progress = some r) (phase : r.phase = .aborting)
    (unrecorded : ¬Aborted E s.journal r.request) (still : ¬Aborted E j r.request) :
    j = s.journal := by
  obtain ⟨abort, bound, held, _, _, _, ready⟩ := recordable.ready i r found phase unrecorded
  have unpruned : ∀ k row, (s.node k).progress = some row → row.phase.pruned = false := by
    intro k row there
    by_cases here : k = i
    · subst here
      obtain rfl := Option.mem_unique found there
      rw [phase]
      rfl
    · obtain ⟨row', there', follows⟩ := ready.peer k here
      obtain rfl := Option.mem_unique there there'
      exact follows.2.1
  cases c with
  | decide request token now policy =>
    obtain ⟨h, h', held, held', same, early, _⟩ := guarded
    have rows : ∀ k, ∃ g, s.handle k = some g ∧ g.prepared.phase = .prepared :=
      Fin.forall_fin_two.mpr ⟨⟨h, held, early⟩, ⟨h', held', same ▸ early⟩⟩
    obtain ⟨g, mine, early⟩ := rows i
    rw [(coherent.handle_row mine found).2, phase] at early
    cases early
  | acknowledge decision member policy =>
    obtain ⟨k, h, _, late, retained⟩ := guarded
    have early := unpruned k _ (Node.validateRetained_eq_ok retained).1
    rw [late] at early
    cases early
  | complete decision id policy =>
    obtain ⟨row, late, _, _, rows⟩ := guarded
    have early := unpruned 0 _ (rows 0)
    rw [late] at early
    cases early
  | abort document token now policy =>
    obtain ⟨⟨next, c⟩, aborted, same⟩ := bind_eq_ok.mp ran
    obtain rfl : next = j := Except.ok.inj same
    obtain ⟨_, _, _, _, _, ⟨rfl, _⟩ | ⟨fresh, new⟩⟩ := Journal.abort_effect coherent.layout aborted
    · rfl
    · obtain ⟨certificate, _, _, _, _, _, _, _, _, applicable, _, _, _, aborts, _, _, made⟩ :=
        Journal.abortNew_effect coherent.layout coherent.positive new
      obtain ⟨rfl, _⟩ := made.unique layout
      obtain ⟨h, h', _, _, _, aborting⟩ := guarded
      obtain ⟨primary, secondary⟩ := aborting _ applicable
      have both : ∀ k, ∃ g, (s.node k).isAborting E host g trust document = .ok () :=
        Fin.forall_fin_two.mpr ⟨⟨h, primary⟩, ⟨h', secondary⟩⟩
      obtain ⟨g, mine⟩ := both i
      obtain ⟨r', _, live, _, _, digest, id, revision, _⟩ := Node.isAborting_eq_ok mine
      obtain rfl := Option.some.inj ((Node.liveProgress_eq_ok live).1.symm.trans found)
      refine absurd ⟨⟨2, document, token, certificate⟩, ?_, digest.symm, id.symm, revision.symm⟩ still
      rw [layout.abortRecords_eq, aborts]
      exact List.mem_append_right _ List.mem_cons_self

theorem journal {c : JournalCall} (ran : c.run E trust s.journal = .ok j)
    (guarded : s.Guards E host trust c) (layout : j.Layout E events' p') :
    ({ s with journal := j } : Site T F C V).Recordable E host trust := by
  obtain ⟨_, _, layout', moved, _, own⟩ := c.run_moves coherent.positive coherent.layout ran
  obtain ⟨rfl, rfl⟩ := layout.unique layout'
  have older : ∀ q, Aborted E s.journal q → Aborted E j q := by
    rintro q ⟨a, mem, names⟩
    rw [coherent.layout.abortRecords_eq] at mem
    refine ⟨a, ?_, names⟩
    rw [layout.abortRecords_eq]
    exact moved.aborts mem
  refine { recordable with recorded := ?_, ready := ?_ }
  · intro i r found aborted
    by_cases before : Aborted E s.journal r.request
    · obtain ⟨phase, bound⟩ := recordable.recorded i r found before
      refine ⟨phase, fun b mem => ?_⟩
      obtain ⟨a, old, rest⟩ := bound b mem
      rw [coherent.layout.abortRecords_eq] at old
      refine ⟨a, ?_, rest⟩
      rw [layout.abortRecords_eq]
      exact moved.aborts old
    · obtain ⟨a, mem, names⟩ := aborted
      have recorded := mem
      rw [layout.abortRecords_eq] at mem
      have new : a ∉ abortsOf events := fun old =>
        before ⟨a, by rw [coherent.layout.abortRecords_eq]; exact old, names⟩
      obtain ⟨token, now, policy, rfl⟩ := (own a mem).resolve_left new
      obtain ⟨h, h', _, _, _, aborting⟩ := guarded
      obtain ⟨_, _, applicable⟩ :=
        Journal.abort_added coherent.positive coherent.layout layout ran mem new
      obtain ⟨primary, secondary⟩ := aborting _ applicable
      have both : ∀ k, ∃ g, (s.node k).isAborting E host g trust a.abort = .ok () :=
        Fin.forall_fin_two.mpr ⟨⟨h, primary⟩, ⟨h', secondary⟩⟩
      obtain ⟨g, mine⟩ := both i
      obtain ⟨r', bound, live, held, phase, _, _, _, id, _⟩ := Node.isAborting_eq_ok mine
      obtain rfl := Option.some.inj ((Node.liveProgress_eq_ok live).1.symm.trans found)
      refine ⟨phase, fun b mem => ?_⟩
      obtain rfl := Option.mem_unique held mem
      exact ⟨a, recorded, names, id.symm⟩
  · intro i r found phase unrecorded
    have before : ¬Aborted E s.journal r.request := fun aborted => unrecorded (older _ aborted)
    obtain rfl := recordable.journal_quiet coherent ran guarded layout found phase before unrecorded
    exact recordable.ready i r found phase before

theorem step (coherent' : s'.Coherent E older events' p')
    (allowed : Allowed E host trust (Guarded E trust) s s') : s'.Recordable E host trust := by
  rcases allowed.view with ⟨call, made, journal, view⟩ | ⟨_, c, j, _, recorded, guards, _, rfl⟩
  · have guarded c mem := (made c mem).1
    have seen i r := recordable.seen (r := r) guarded (view i)
    refine ⟨fun i r found => (seen i r found).1.congr fun k => (view k).owner,
      fun i => (view i).owners (recordable.owners i), fun i r found => (seen i r found).2.1,
      fun i r found => journal ▸ (seen i r found).2.2.1, fun i r found phase unrecorded => ?_⟩
    rw [journal] at unrecorded
    obtain ⟨⟨abort, bound, held, id, decided, binds, ready⟩, kept⟩ :=
      (seen i r found).2.2.2 phase unrecorded
    exact ⟨abort, bound, held, id, decided, binds, journal ▸ ready.accepts, journal ▸ ready.flag,
      fun k other => peer coherent guarded (view k) other (fun c mem kind named => ⟨unrecorded, r,
        bound, kept c mem k kind other named, phase, held, id, decided⟩) (ready.peer k other)⟩
  · exact recordable.journal coherent recorded guards coherent'.layout

end Recordable

theorem Start.recordable {scope : JournalScope} (start : s.Start E scope) :
    s.Recordable E host trust where
  paired _ _ found := (start.no_row found).elim
  owners _ _ held := (start.no_handle held).elim
  valid _ _ found := (start.no_row found).elim
  recorded _ _ found := (start.no_row found).elim
  ready _ _ found := (start.no_row found).elim

theorem Start.records {scope : JournalScope} {start : Site T F C V} (begun : start.Start E scope)
    (run : Relation.ReflTransGen (Allowed E host trust (Guarded E trust)) start s) :
    ∃ events p, s.Coherent E (fun i => (start.node i).certified) events p ∧
      s.Recordable E host trust :=
  begun.invariant (I := fun s _ => s.Recordable E host trust) Allowed.step begun.recordable
    (fun coherent coherent' recordable => recordable.step coherent coherent') run

/-- An aborting row shows its own abort to the authority. -/
theorem Recordable.isAborting (recordable : s.Recordable E host trust) {abort : MaintenanceAbort}
    {bound : AbortLocal} (held : s.handle i = some h) (coherent : s.Coherent E older events p)
    (found : (s.node i).progress = some h.prepared) (phase : h.prepared.phase = .aborting)
    (kept : h.prepared.abort = some bound) (binds : BindsAbort E abort h.prepared.request)
    (id : bound.abortId = abort.id) (decided : bound.decided = abort.decided) :
    (s.node i).isAborting E host h trust abort = .ok () := by
  obtain ⟨inspection, valid⟩ := recordable.valid i h.prepared found phase
  have mine := valid h.certifiedAuthority none (fun _ none => nomatch none)
  have owner := recordable.owners i h held
  rw [← owner.1, ← owner.2] at mine
  have live : (s.node i).liveProgress E host h trust = .ok h.prepared := by
    rw [Node.liveProgress, Handle.binding, mine]
    rfl
  have format : h.prepared.format = 2 := by
    simp only [Node.validatePending, Node.checkProgress, checked_ok, queried_eq_ok] at mine
    obtain ⟨_, _, r, ⟨_, _, _, _, _, _, aborting, rfl⟩, _, _, _, _, _, _, _, rfl⟩ := mine
    exact (aborting.resolve_left (fun other => other phase)).1
  have revision := (coherent.node i).bound h.prepared found bound kept
  simp only [Node.isAborting, bind_eq_ok, require_eq_ok]
  exact ⟨h.prepared, live, bound, kept, ensure_eq_ok.mpr ⟨phase, format, binds.1.symm,
    binds.2.1.symm, binds.2.2.1.symm, id, decided, revision.trans binds.2.2.1.symm⟩⟩

end Site

open Site

theorem other_unique {k m : Fin 2} (left : m ≠ i) (right : k ≠ i) : m = k := by
  revert i k m
  decide

/-- A node that is bound to an abort which is not recorded: the abort's flag is the
journal's, the peer has not passed its decision, and once the peer is aborting as well the
authority records the abort under any token of it that is still valid. -/
theorem begun_abort_recordable {scope : JournalScope} {start s : Site T F C V}
    (begun : start.Start E scope)
    (run : Relation.ReflTransGen (Allowed E host trust (Guarded E trust)) start s)
    {i : Fin 2} {r : Prepared} {bound : AbortLocal} (pending : (s.node i).progress = some r)
    (phase : r.phase = .aborting) (held : r.abort = some bound)
    (unrecorded : ∀ a ∈ s.journal.abortRecords E,
      ¬(Names E a.abort r.request ∧ a.abort.id = bound.abortId)) :
    (bound.decided = true ↔ s.journal.HoldsOpen E trust r.request) ∧
    ∀ k, k ≠ i → ∃ r', (s.node k).progress = some r' ∧ r'.request = r.request ∧
      (r'.phase = .prepared ∨ r'.phase = .decided ∨ r'.phase = .aborting) ∧
      (r'.phase = .aborting → (∀ m, (s.handle m).isSome) →
        ∀ abort token now certificate, BindsAbort E abort r.request → abort.id = bound.abortId →
        abort.decided = bound.decided →
        E.verifyAbortIssuance token trust abort now = .ok certificate →
        E.bytes (E.encode (⟨2, abort, token, certificate⟩ : AbortRecord)) ≤ maxRecord →
        ∃ s', (Call.abortAuthority abort token now fun _ => permissive).run E host trust s =
          .ok s') := by
  obtain ⟨events, p, coherent, recordable⟩ := begun.records run
  have fresh : ¬Aborted E s.journal r.request := by
    intro aborted
    obtain ⟨a, mem, names⟩ := (recordable.recorded i r pending aborted).2 bound held
    exact unrecorded a mem names
  obtain ⟨document, local_, kept, id, decided, binds, ready⟩ :=
    recordable.ready i r pending phase fresh
  obtain rfl : bound = local_ := Option.mem_unique held kept
  refine ⟨?_, fun k other => ?_⟩
  · rw [decided]
    exact ready.flag
  obtain ⟨r', stored, same, early, follows⟩ := ready.peer k other
  refine ⟨r', stored, same, ?_, ?_⟩
  · cases at_ : r'.phase <;> simp_all [Phase.pruned]
  intro aborting opened abort token now certificate binds' id' decided' issued fits
  have rows : ∀ m, ∃ h, s.handle m = some h ∧ (s.node m).progress = some h.prepared ∧
      h.prepared.request = r.request ∧ (s.node m).isAborting E host h trust abort = .ok () := by
    intro m
    obtain ⟨h, open_⟩ := Option.isSome_iff_exists.mp (opened m)
    have row : ∃ row b, (s.node m).progress = some row ∧ row.request = r.request ∧
        row.phase = .aborting ∧ row.abort = some b ∧ b.abortId = abort.id ∧
        b.decided = abort.decided := by
      by_cases here : m = i
      · subst here
        exact ⟨r, bound, pending, rfl, phase, held, id'.symm, decided'.symm⟩
      · obtain rfl := other_unique here other
        obtain ⟨_, b, there, _⟩ := recordable.ready m r' stored aborting (same ▸ fresh)
        obtain ⟨idPeer, decidedPeer⟩ := follows aborting b there
        exact ⟨r', b, stored, same, aborting, there, idPeer.trans (id.symm.trans id'.symm),
          decidedPeer.trans (decided.symm.trans decided'.symm)⟩
    obtain ⟨row, b, there, mine, late, kept, idRow, decidedRow⟩ := row
    obtain ⟨_, rfl⟩ := coherent.handle_row open_ there
    exact ⟨h, open_, there, mine,
      recordable.isAborting open_ coherent there late kept (mine ▸ binds') idRow decidedRow⟩
  obtain ⟨h, open_, _, mine, first⟩ := rows 0
  obtain ⟨h', open', _, mine', second⟩ := rows 1
  have paired := recordable.paired i r pending
  have owner := recordable.owners 0 h open_
  have owner' := recordable.owners 1 h' open'
  have accepts := accepts_rebound ready.accepts binds binds' (decided'.trans decided)
  obtain ⟨⟨j, c⟩, recorded⟩ := accepts.abort coherent.layout coherent.positive
    (abortingPolicy E host permissive s.node h h' trust) issued fits
    (fun ask row => permissive_continuityOf ask s.journal.scope row)
    (unit_bind_eq_ok.mpr ⟨rfl, unit_bind_eq_ok.mpr ⟨first, second⟩⟩)
  refine ⟨{ s with journal := j }, ?_⟩
  simp only [Call.run, bind_eq_ok, opened_eq_ok]
  refine ⟨h, open_, h', open', (j, c), ?_, rfl⟩
  simp only [abortAuthority, bind_eq_ok]
  exact ⟨(), ensure_eq_ok.mpr ⟨owner.2.trans paired.1, owner'.2.trans paired.2.1,
    owner.1.trans (paired.2.2.trans owner'.1.symm), mine.trans mine'.symm⟩, recorded⟩

namespace Sample

open Recovery.Sample (token trusted)

/-- The first request was never decided and node `k` is still pending for it. -/
def Undecided (k : Fin 2) (s : UnitSite) : Bool :=
  (s.journal.read siteEnv trusted).toOption.any (fun history =>
    history.head.isNone && (history.abortAt 1).isNone &&
      (Journal.abortTarget siteEnv history (cancellation 1)).toOption.isSome &&
      decide (history.aborts.length < maxAbortRows)) &&
  !s.journal.successorParentExists && s.journal.loss.isNone &&
  decide (s.journal.scope.BindsAbort (cancellation 1)) &&
  (s.journal.markJournalFormatTwo siteEnv).toOption.isSome &&
  (s.node k).progress.any fun r => decide (r.request = request 1) && !r.phase.pruned &&
    r.abort.all fun b => decide (b.abortId = (cancellation 1).id) && !b.decided

theorem undecided_ready {k : Fin 2} (other : k ≠ i) {s : UnitSite}
    (undecided : Undecided k s = true) :
    s.Ready siteEnv trusted i (request 1) (cancellation 1) := by
  simp only [Undecided, Bool.and_eq_true, decide_eq_true_eq, Bool.not_eq_true',
    Option.isNone_iff_eq_none] at undecided
  obtain ⟨⟨⟨⟨⟨read, root⟩, whole⟩, binds⟩, marked⟩, peer⟩ := undecided
  obtain ⟨history, read, found⟩ := exists_of_any read
  simp only [Bool.and_eq_true, decide_eq_true_eq, Option.isNone_iff_eq_none] at found
  obtain ⟨⟨⟨empty, first⟩, target⟩, room⟩ := found
  refine ⟨⟨⟨history, read, first, ?_, room⟩, root, ?_, binds, ?_⟩, ?_, ?_⟩
  · match made : Journal.abortTarget siteEnv history (cancellation 1) with
    | .ok () => rfl
    | .error e =>
      rw [made] at target
      cases target
  · rw [Journal.lossRecordExists, whole]
    rfl
  · match made : s.journal.markJournalFormatTwo siteEnv with
    | .ok j => exact ⟨j, rfl⟩
    | .error e =>
      rw [made] at marked
      cases marked
  · refine iff_of_false (by decide) ?_
    rintro ⟨history', r, again, head, _⟩
    obtain rfl := ok_unique read again
    rw [empty] at head
    cases head
  · intro m there
    obtain rfl := other_unique there other
    obtain ⟨r, stored, facts⟩ := (Option.any_eq_true ..).mp peer
    simp only [Bool.and_eq_true, decide_eq_true_eq, Bool.not_eq_true'] at facts
    refine ⟨r, stored, facts.1.1, facts.1.2, fun _ b mem => ?_⟩
    have bound := facts.2
    rw [Option.mem_def.mp mem, Option.all_some, Bool.and_eq_true, decide_eq_true_eq,
      Bool.not_eq_true'] at bound
    exact bound

def beginAbort (i : Fin 2) : Call := .beginAbort i (cancellation 1) (token .abort 1) 0

def Pending (i : Fin 2) (s : UnitSite) : Bool :=
  (s.node i).progress.all fun r => decide (r.request = request 1)

theorem beginAbort_guarded {k : Fin 2} (other : k ≠ i) {s : UnitSite}
    (undecided : Undecided k s = true) (own : Pending i s = true) :
    s.Guarded siteEnv trusted (beginAbort i) := by
  intro r found _
  rw [Pending, found, Option.all_some, decide_eq_true_eq] at own
  rw [own]
  exact ⟨undecided_ready other undecided, show 1 ≤ 256 * 1024 by decide⟩

/-- Node `i` is aborting by the undecided cancellation, which is not recorded. -/
def Bound (i : Fin 2) (s : UnitSite) : Prop :=
  (s.node i).progress.any (fun r => r.phase = .aborting ∧ r.request = request 1 ∧
    r.abort = some (abortLocal siteEnv (cancellation 1) (token .abort 1))) ∧
  s.journal.abortRecords siteEnv = [] ∧ (s.handle 0).isSome ∧ (s.handle 1).isSome

instance (i : Fin 2) (s : UnitSite) : Decidable (Bound i s) :=
  inferInstanceAs (Decidable (_ ∧ _))

/-- Both nodes abort a request the journal never decided, and the authority records it. -/
theorem begun_abort_recordable_undecided :
    ∃ s s', proceed [prepareBoth, openNode 0, openNode 1, beginAbort 0, beginAbort 1] site = .ok s ∧
      Bound 0 s ∧ Bound 1 s ∧
      ¬s.journal.HoldsOpen siteEnv trusted (request 1) ∧
      (Call.abortAuthority (cancellation 1) (token .abort 1) 0 fun _ => permissive).run
        siteEnv siteHost trusted s = .ok s' := by
  have passes : (proceed [prepareBoth] site).toOption.any (fun s₀ =>
      (proceed [openNode 0, openNode 1] s₀).toOption.any fun s₁ => Undecided 1 s₁ && Pending 0 s₁ &&
        ((beginAbort 0).run siteEnv siteHost trusted s₁).toOption.any fun s₂ =>
          Undecided 0 s₂ && Pending 1 s₂ &&
          ((beginAbort 1).run siteEnv siteHost trusted s₂).toOption.any fun s =>
            decide (Bound 0 s ∧ Bound 1 s)) = true := by
    decide +kernel
  obtain ⟨s₀, prepared, passes⟩ := exists_of_any passes
  obtain ⟨s₁, opened, passes⟩ := exists_of_any passes
  simp only [Bool.and_eq_true] at passes
  obtain ⟨⟨ready, pending⟩, passes⟩ := passes
  obtain ⟨s₂, first, passes⟩ := exists_of_any passes
  simp only [Bool.and_eq_true] at passes
  obtain ⟨⟨ready', pending'⟩, passes⟩ := passes
  obtain ⟨s, second, passes⟩ := exists_of_any passes
  obtain ⟨bound, bound'⟩ := of_decide_eq_true passes
  have start : prepareBoth.run siteEnv siteHost trusted site = .ok s₀ := by
    simpa only [proceed, List.foldlM_cons, List.foldlM_nil, bind_pure] using prepared
  have free : site.Guarded siteEnv trusted prepareBoth := by
    rintro ⟨a, mem, _⟩
    cases mem
  have run : Relation.ReflTransGen (Allowed siteEnv siteHost trusted (Guarded siteEnv trusted))
      site s :=
    ((Relation.ReflTransGen.head (.inl ⟨_, free, start⟩)
      (proceed_allowed (by simp [openNode, Guarded]) opened)).tail
      (.inl ⟨_, beginAbort_guarded (by decide) ready pending, first⟩)).tail
      (.inl ⟨_, beginAbort_guarded (by decide) ready' pending', second⟩)
  obtain ⟨r, stored, facts⟩ := (Option.any_eq_true ..).mp bound.1
  obtain ⟨phase, mine, held⟩ := of_decide_eq_true facts
  obtain ⟨r', stored', facts'⟩ := (Option.any_eq_true ..).mp bound'.1
  have unrecorded : ∀ a ∈ s.journal.abortRecords siteEnv, ¬(Names siteEnv a.abort r.request ∧
      a.abort.id = (abortLocal siteEnv (cancellation 1) (token .abort 1)).abortId) := by
    rw [bound.2.1]
    simp
  obtain ⟨flag, peer⟩ :=
    begun_abort_recordable site_start run stored phase held unrecorded
  obtain ⟨row, there, _, _, accepted⟩ := peer 1 (by decide)
  obtain rfl := Option.mem_unique there stored'
  have issued : (siteEnv.verifyAbortIssuance (token .abort 1) trusted (cancellation 1) 0).toOption.any
      (fun _ => true) = true := by
    decide +kernel
  obtain ⟨certificate, issued, _⟩ := exists_of_any issued
  have binds : BindsAbort siteEnv (cancellation 1) (request 1) := by decide +kernel
  obtain ⟨s', recorded⟩ := accepted (of_decide_eq_true facts').1
    (Fin.forall_fin_two.mpr ⟨bound.2.2.1, bound.2.2.2⟩) (cancellation 1) (token .abort 1) 0
    certificate (mine ▸ binds) rfl rfl issued (show 1 ≤ maxRecord by decide)
  refine ⟨s, s', ?_, bound, bound', ?_, recorded⟩
  · simp only [proceed, List.foldlM_cons, List.foldlM_nil, bind_pure] at opened ⊢
    rw [start]
    simp only [bind_eq_ok] at opened ⊢
    obtain ⟨middle, one, two⟩ := opened
    exact ⟨s₀, rfl, middle, one, s₁, two, s₂, first, second⟩
  · rw [mine] at flag
    exact fun holds => absurd (flag.mpr holds) (by decide)

/-- The journal decides the request before the nodes record it: both still take the abort
of an undecided request, and the authority can never record it. -/
theorem undecided_abort_of_decided : site.Start siteEnv Recovery.Sample.scope ∧
    ∃ s, proceed (opening ++ [.decidePrepared 0 asks, beginAbort 0, beginAbort 1]) site = .ok s ∧
      Bound 0 s ∧ Bound 1 s ∧ s.journal.HoldsOpen siteEnv trusted (request 1) ∧
      (Call.abortAuthority (cancellation 1) (token .abort 1) 0 fun _ => permissive).run
        siteEnv siteHost trusted s = .error (.message "maintenance abort target mismatch") := by
  have passes : (proceed (opening ++ [.decidePrepared 0 asks, beginAbort 0, beginAbort 1])
      site).toOption.any (fun s => (Bound 0 s ∧ Bound 1 s) ∧
        (s.journal.read siteEnv trusted).toOption.any (fun history => history.head.any fun r =>
          r.request = request 1 ∧ r.completion = none) ∧
        refusal ((Call.abortAuthority (cancellation 1) (token .abort 1) 0 fun _ => permissive).run
          siteEnv siteHost trusted s) = some (.message "maintenance abort target mismatch")) = true := by
    decide +kernel
  obtain ⟨s, reached, passes⟩ := exists_of_any passes
  obtain ⟨⟨bound, bound'⟩, read, refused⟩ := of_decide_eq_true passes
  obtain ⟨history, read, head⟩ := exists_of_any read
  obtain ⟨r, head, facts⟩ := (Option.any_eq_true ..).mp head
  exact ⟨site_start, s, reached, bound, bound',
    ⟨history, r, read, head, of_decide_eq_true facts⟩, eq_error_of_refusal refused⟩

end Sample

end TerrapiVault.Maintenance
