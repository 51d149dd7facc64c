import TerrapiVault.Maintenance.Exclusion

/-! An abort that the journal has recorded can be finished on every node still pending
for it, provided the tokens agree: the authority compares the abort document with both
nodes, and each node later compares the token as well. -/
namespace TerrapiVault.Recovery

open Replication (ensure_eq_ok)

variable {T : Type → Type} {E : Env T} {trust : Trust} {events : List Event} {p : Position}
  {j : Journal T}

theorem permissive_continuityOf (ask : ℕ) (scope : JournalScope) (r : Option Record) :
    permissive.continuityOf ask scope r = .ok () := by
  cases r <;> rfl

theorem Journal.fetchAbort_recorded (admits : j.Admits E trust events)
    (layout : j.Layout E events p) {q : Request} (valid : q.validate = .ok ()) {a : AbortRecord}
    (mem : a ∈ abortsOf events) (digest : a.abort.abortedRequest = E.digest q)
    (id : a.abort.abortedRequestId = q.id) :
    j.fetchAbort E q trust permissive =
      .ok ⟨a.abort, a.token, E.tokenDigest a.token, a.certificateId⟩ := by
  have read : j.read E trust = .ok (p.history j.scope events) :=
    Journal.read_eq_ok.mpr ⟨events, p, admits, layout, rfl⟩
  have apart : ∀ b ∈ abortsOf events, b.abort.abortedRequestId = q.id → b = a := by
    intro b inside same
    by_contra other
    have symmetric : Std.Symm AbortRecord.Distinct :=
      ⟨fun _ _ distinct => ⟨distinct.1.symm, distinct.2.1.symm, distinct.2.2.symm⟩⟩
    have distinct := admits.distinct.forall inside mem other
    exact distinct.2.1 (same.trans id.symm)
  have first : (abortsOf events).find? (fun r => r.abort.abortedRequest = E.digest q ∧
      r.abort.abortedRequestId = q.id) = some a := by
    cases found : (abortsOf events).find? (fun r => r.abort.abortedRequest = E.digest q ∧
        r.abort.abortedRequestId = q.id) with
    | none =>
      have never := List.find?_eq_none.mp found a mem
      simp [digest, id] at never
    | some b =>
      have named := List.find?_some found
      simp only [decide_eq_true_eq] at named
      rw [apart b (List.mem_of_find?_eq_some found) named.2]
  obtain ⟨row, _, load⟩ := forall₂_mem_right admits.aborts mem
  have verified := (loadAbort_eq_ok.mp load).2.2.2.2.2
  have hashed : E.documentDigest .transition q = .ok (E.digest q) :=
    Env.documentDigest_eq_ok.mpr ⟨valid, rfl⟩
  simp only [fetchAbort, bind_eq_ok, require_eq_ok]
  refine ⟨_, hashed, _, read, a, first, (), permissive_continuityOf .., ?_⟩
  simp only [Env.committedAbort, checked_ok]
  exact ⟨_, verified, rfl, rfl⟩

end TerrapiVault.Recovery

namespace TerrapiVault.Maintenance

open Replication
open Recovery

variable {T : Type → Type} {E : Env T} {F C V : Type} {host : Host F C V} {trust : Trust}

namespace Node

variable {n : Node F C V} {h : Handle} {binding : Binding} {expected : Request}
  {exact : Option Prepared} {inspection : PendingInspection} {r : Prepared} {marker : Marker}

/-- A node that is past the decision no longer shows its certificates to the authority. -/
theorem checkRecovery_late (late : r.phase ≠ .prepared ∧ r.phase ≠ .decided) (other : Binding) :
    n.checkRecovery E host other trust r = n.checkRecovery E host binding trust r := by
  have anchor : ∀ active : Active,
      n.checkAnchor E host other trust r.phase active =
        n.checkAnchor E host binding trust r.phase active := by
    intro active
    rw [checkAnchor, checkAnchor]
    simp only [late, or_self, if_false]
  simp only [checkRecovery, anchor]

theorem checkProgress_again (ok : n.checkProgress E expected exact = .ok r)
    (again : Option Prepared) (same : ∀ e ∈ again, r = e) :
    n.checkProgress E expected again = .ok r := by
  simp only [checkProgress, checked_ok, queried_eq_ok] at ok ⊢
  obtain ⟨_, found, fits, _, request, plain, aborting, rfl⟩ := ok
  exact ⟨_, found, fits, same, request, plain, aborting, rfl⟩

theorem validatePending_late
    (ok : n.validatePending E host binding expected trust exact = .ok (inspection, r))
    (late : r.phase ≠ .prepared ∧ r.phase ≠ .decided) (authority : Option CertifiedAuthority)
    (again : Option Prepared) (same : ∀ e ∈ again, r = e) :
    n.validatePending E host ⟨n.identity, n.role, authority⟩ r.request trust again =
      .ok (inspection, r) := by
  obtain ⟨_, _, rfl, identity, role⟩ := validatePending_eq_ok ok
  simp only [validatePending, run_ok] at ok ⊢
  obtain ⟨m, marked, r', progress, history, checkpoint, plan, v, evidence, recovery, seen, rfl⟩ :=
    ok
  have owner : n.checkMarker E host ⟨n.identity, n.role, authority⟩ = .ok m := by
    simp only [checkMarker, identity, role] at marked ⊢
    exact marked
  refine ⟨m, owner, r', checkProgress_again progress again same, history, checkpoint, plan, v,
    evidence, ?_, ?_, rfl⟩
  · rw [checkRecovery_late late]
    exact recovery
  · rw [← seen, identity, role]

/-- The node as `finish_abort` leaves it. -/
def restored (n : Node F C V) (marker : Marker) : Node F C V :=
  { n with runtime := marker.previousRuntime, marker := none, progress := none }

/-- What `finish_abort` checks of the node it has just restored. -/
structure Restorable (E : Env T) (host : Host F C V) (trust : Trust) (n : Node F C V)
    (marker : Marker) : Prop where
  marked : n.marker = some marker
  runtime : marker.previousRuntime = 3 ∨ marker.previousRuntime = 4
  verified : ∀ h : Handle, h.identity = n.identity → h.role = n.role →
    (n.restored marker).verifyRestored E host h trust = .ok ()

/-- A node is created and opened under an identity of the host's schema. -/
def Owned (host : Host F C V) (n : Node F C V) : Prop :=
  n.identity.schema = host.contract.schema ∧ 0 < n.identity.epoch ∧ n.identity.cluster ≠ "" ∧
    n.identity.tenant ≠ ""

/-- A node without certificates is not in the certified format. -/
def Plain (n : Node F C V) : Prop := n.segments.certificates = none → n.segments.version ≠ 3

theorem preflight_plain {opened : Opened} (ok : n.preflight E host opened r = .ok ()) : n.Plain := by
  intro bare version
  simp only [preflight, requireAppliable, bare, Option.isSome_none, Bool.false_eq_true, if_false,
    checked_ok] at ok
  obtain ⟨_, _, _, ⟨_, legacy⟩, _⟩ := ok
  omega

theorem verifyCertified_plain {segments : Segments} {base : Option Prefix} {identity : Identity}
    {role : Role} {trust : Option Trust} {terminated : ℕ × Id × Id × Id → Result Unit}
    (bare : segments.certificates = none) (plain : segments.version ≠ 3) :
    segments.verifyCertified E base identity role trust terminated = .ok () := by
  rw [Segments.verifyCertified, Segments.verifyMetadata, if_pos plain, bind_eq_ok]
  refine ⟨none, ?_, if_neg plain⟩
  rw [unit_bind_eq_ok, ensure_eq_ok]
  exact ⟨bare, rfl⟩

/-- Everything a restored node is checked for was checked before its abort began. -/
theorem restorable_of_retained (retained : n.validateRetained E host h trust = .ok ())
    (phase : h.prepared.phase = .prepared ∨ h.prepared.phase = .decided) (plain : n.Plain) :
    ∃ marker, n.Restorable E host trust marker := by
  obtain ⟨inspection, valid⟩ := validateRetained_pending retained
  simp only [validatePending, run_ok] at valid
  obtain ⟨m, marked, r', progress, history, _, _, _, _, recovery, _, rfl⟩ := valid
  have unpruned : h.prepared.phase.pruned = false := by
    rcases phase with phase | phase <;> rw [phase] <;> rfl
  simp only [checkMarker, checked_ok, queried_eq_ok] at marked
  obtain ⟨_, found, _, ⟨_, _, _, runtime⟩, ⟨_, initial⟩, _, _, same⟩ := marked
  rw [same] at found runtime
  simp only [checkHistory, checkLineage, unpruned, Bool.false_eq_true, if_false,
    run_ok] at history
  obtain ⟨schema, ⟨derived, format, rows⟩, _, capacity, accounting⟩ := history
  have certified : n.segments.verifyCertified E n.store.base n.identity n.role (some trust)
      (host.terminated n.files) = .ok () := by
    by_cases some : n.segments.certificates.isSome = true
    · simp only [checkRecovery, checkAnchor, some, phase, if_true, run_ok] at recovery
      obtain ⟨_, _, _, _, _, ⟨verified, _⟩, _⟩ := recovery
      exact verified
    · have bare := Option.not_isSome_iff_eq_none.mp some
      exact verifyCertified_plain bare (plain bare)
  refine ⟨m, found, runtime, fun h' identity role => ?_⟩
  simp only [verifyRestored, restored, bind_eq_ok]
  exact ⟨(), ensure_eq_ok.mpr ⟨identity.symm, role.symm⟩, (), ensure_eq_ok.mpr initial, derived,
    format, (), rows, (), certified, (), capacity, (), accounting, schema⟩

end Node

/-- The row validates by any handle on its node. -/
def Prepared.Valid (E : Env T) (host : Host F C V) (trust : Trust) (n : Node F C V) (r : Prepared) :
    Prop :=
  ∃ inspection, ∀ authority again, (∀ e ∈ again, r = e) →
    n.validatePending E host ⟨n.identity, n.role, authority⟩ r.request trust again =
      .ok (inspection, r)

namespace Prepared.Valid

variable {n : Node F C V} {r : Prepared}

theorem retained {h : Handle} (valid : h.prepared.Valid E host trust n)
    (owner : h.identity = n.identity ∧ h.role = n.role) :
    n.validateRetained E host h trust = .ok () := by
  obtain ⟨inspection, valid⟩ := valid
  rw [Node.validateRetained, Handle.binding, owner.1, owner.2,
    valid h.certifiedAuthority (some h.prepared) (fun e same => Option.some.inj same)]
  rfl

theorem evident (valid : r.Valid E host trust n) :
    ∃ v, E.verifyHistorical r.token trust r.request = .ok v ∧ r.evident v.tokenDigest = true := by
  obtain ⟨inspection, valid⟩ := valid
  have checked := valid none none (fun _ none => nomatch none)
  simp only [Node.validatePending, Prepared.checkEvidence, checked_ok] at checked
  obtain ⟨_, _, _, _, _, _, _, _, ⟨v, historical, evident, _⟩, _, _, rfl⟩ := checked
  exact ⟨v, historical, evident⟩

theorem opens (valid : r.Valid E host trust n) (owned : n.Owned host)
    (authority : Option CertifiedAuthority) :
    ∃ h, n.openExisting E host n.identity r.request trust authority = .ok h ∧ h.prepared = r ∧
      h.finalized = false ∧ h.identity = n.identity ∧ h.role = n.role := by
  obtain ⟨inspection, valid⟩ := valid
  have first := valid authority none (fun _ none => nomatch none)
  have again := valid authority (some r) (fun e same => Option.some.inj same)
  have marked : ∃ marker, n.marker = some marker ∧ E.bytes (E.encode marker) ≤ 64 * 1024 ∧
      marker.role = n.role := by
    simp only [Node.validatePending, Node.checkMarker, checked_ok, queried_eq_ok] at first
    obtain ⟨_, ⟨marker, stored, fits, owner, _⟩, _⟩ := first
    exact ⟨marker, stored, fits, owner.2.2.1⟩
  obtain ⟨marker, stored, fits, role⟩ := marked
  refine ⟨⟨n.identity, marker.role, inspection, r, false, authority⟩, ?_, rfl, rfl, rfl, role⟩
  simp only [Node.openExisting, run_ok, require_eq_ok]
  exact ⟨ensure_eq_ok.mpr owned, marker, stored, ensure_eq_ok.mpr fits,
    (inspection, r), role ▸ first, (inspection, r), role ▸ again, rfl⟩

end Prepared.Valid

/-- The row is the one the recorded abort was made for, and it still validates. -/
structure Prepared.Proven (E : Env T) (host : Host F C V) (trust : Trust) (j : Journal T)
    (n : Node F C V) (r : Prepared) : Prop where
  phase : r.phase = .aborting
  valid : r.Valid E host trust n
  proof : ∃ bound a, r.abort = some bound ∧ a ∈ j.abortRecords E ∧ Names E a.abort r.request ∧
    a.abort.id = bound.abortId ∧ E.tokenDigest a.token = bound.abortTokenDigest ∧
    a.abort.decided = bound.decided

namespace Site

variable {s s' : Site T F C V} {events events' : List Event} {p p' : Position}
  {older : Fin 2 → List Request}

/-- Nothing is prepared again once its abort is recorded; an abort is recorded under a
token of the digest both nodes hold, and under identifiers no other abort has. -/
def Matches (E : Env T) (s : Site T F C V) : Call → Prop
  | .preparePair _ _ request _ _ _ => ¬Aborted E s.journal request
  | .abortAuthority abort token now policy =>
      (∀ i r, (s.node i).progress = some r → ∀ b ∈ r.abort,
        b.abortTokenDigest = E.tokenDigest token) ∧
      (JournalCall.abort abort token now (policy 0)).Fresh E s.journal
  | _ => True

/-- What every site of such a run satisfies, beside `Coherent`. -/
structure Finishable (E : Env T) (host : Host F C V) (trust : Trust) (s : Site T F C V)
    (events : List Event) : Prop where
  scope : s.journal.scope.validate = .ok ()
  owned : ∀ i, (s.node i).Owned host
  owners : ∀ i h, s.handle i = some h →
    h.identity = (s.node i).identity ∧ h.role = (s.node i).role
  readable : events = [] ∨ ∃ history, s.journal.read E trust = .ok history
  plain : ∀ i r, (s.node i).progress = some r → r.phase.pruned = false → (s.node i).Plain
  restorable : ∀ i r, (s.node i).progress = some r → r.phase = .aborting →
    ∃ marker, (s.node i).Restorable E host trust marker
  proven : ∀ i r, (s.node i).progress = some r → Aborted E s.journal r.request →
    r.Proven E host trust s.journal (s.node i)

variable {i : Fin 2} {r : Prepared}

namespace Finishable

/-- A row that is not aborting stands for a request without a recorded abort. -/
theorem not_aborted (finishable : s.Finishable E host trust events)
    (found : (s.node i).progress = some r) (phase : r.phase ≠ .aborting) {next : Prepared}
    (request : next.request = r.request) : ¬Aborted E s.journal next.request :=
  fun aborted => phase (finishable.proven i r found (request ▸ aborted)).phase

theorem seen (finishable : s.Finishable E host trust events) {call : Option Call}
    (matched : ∀ c ∈ call, Matches E s c) (view : View E host trust s s' call i)
    (found : (s'.node i).progress = some r) :
    (r.phase.pruned = false → (s'.node i).Plain) ∧
      (r.phase = .aborting → ∃ marker, (s'.node i).Restorable E host trust marker) ∧
      (Aborted E s.journal r.request → r.Proven E host trust s.journal (s'.node i)) := by
  cases view with
  | same node =>
    rw [node] at found ⊢
    exact ⟨finishable.plain i r found, finishable.restorable i r found, finishable.proven i r found⟩
  | prepare opened row fresh now writes named closed absent checked paired node =>
    rw [node] at found ⊢
    obtain rfl : row = r := Option.some.inj found
    have plain : (s.node i).Plain := Node.preflight_plain checked
    refine ⟨fun _ => plain, fun aborting => ?_, fun aborted => ?_⟩
    · rw [fresh] at aborting
      cases aborting
    · exact absurd aborted (matched _ named)
  | serve closed idle serves =>
    rw [serves.progress] at found
    cases found
  | turn h held c made kind named n' h' turned node handle =>
    rw [node] at found ⊢
    cases turned with
    | again =>
      exact ⟨finishable.plain i r found, finishable.restorable i r found, finishable.proven i r found⟩
    | decide policy c fetched retained phase next row =>
      have before := (Node.validateRetained_eq_ok retained).1
      obtain rfl : next = r := Option.some.inj found
      exact ⟨fun _ => finishable.plain i h.prepared before (phase ▸ rfl), by simp [row], fun aborted =>
        absurd aborted (finishable.not_aborted before (by simp [phase]) (row ▸ rfl))⟩
    | apply policy c fetched retained phase _ _ next row | complete policy c fetched retained phase next row =>
      have before := (Node.validateRetained_eq_ok retained).1
      obtain rfl : next = r := Option.some.inj found
      exact ⟨by simp [row, Phase.pruned], by simp [row], fun aborted =>
        absurd aborted (finishable.not_aborted before (by simp [phase]) (row ▸ rfl))⟩
    | finalize | restore => cases found
    | abort document token binds retained phase decided next row =>
      have before := (Node.validateRetained_eq_ok retained).1
      have early : h.prepared.phase.pruned = false := by
        rcases phase with phase | phase <;> rw [phase] <;> rfl
      have plain := finishable.plain i h.prepared before early
      obtain rfl : next = r := Option.some.inj found
      refine ⟨fun _ => plain, fun _ => ?_, ?_⟩
      · obtain ⟨marker, able⟩ := Node.restorable_of_retained retained phase plain
        exact ⟨marker, able.marked, able.runtime, able.verified⟩
      · refine fun aborted => absurd aborted (finishable.not_aborted before ?_ (row ▸ rfl))
        rcases phase with phase | phase <;> simp [phase]

/-- Both nodes were read when the abort was recorded. -/
theorem proven_of_aborting {j : Journal T} {n : Node F C V} {h : Handle} {a : AbortRecord}
    (aborting : n.isAborting E host h trust a.abort = .ok ()) (recorded : a ∈ j.abortRecords E)
    (found : n.progress = some r)
    (tokens : ∀ b ∈ r.abort, b.abortTokenDigest = E.tokenDigest a.token) :
    r.Proven E host trust j n := by
  obtain ⟨r', bound, live, held, phase, digest, id, revision, same, decided, _⟩ :=
    Node.isAborting_eq_ok aborting
  simp only [Node.liveProgress, run_ok] at live
  obtain ⟨⟨inspection, r''⟩, valid, rfl⟩ := live
  obtain rfl : r'' = r :=
    Option.some.inj ((Node.validatePending_eq_ok valid).1.symm.trans found)
  have late : r''.phase ≠ .prepared ∧ r''.phase ≠ .decided := by
    have aborting : r''.phase = .aborting := phase
    simp [aborting]
  refine ⟨phase, ⟨inspection, Node.validatePending_late valid late⟩, bound, a, held, recorded,
    ⟨digest.symm, id.symm, revision.symm⟩, same.symm, (tokens bound held).symm, decided.symm⟩

variable (finishable : s.Finishable E host trust events)
include finishable

theorem journal (coherent : s.Coherent E older events p) {c : JournalCall} {j : Journal T}
    (ran : c.run E trust s.journal = .ok j) (guarded : s.Guards E host trust c)
    (fresh : c.Fresh E s.journal)
    (tokens : ∀ abort token now policy, c = .abort abort token now policy → ∀ i r,
      (s.node i).progress = some r → ∀ b ∈ r.abort, b.abortTokenDigest = E.tokenDigest token)
    (layout : j.Layout E events' p') :
    ({ s with journal := j } : Site T F C V).Finishable E host trust events' := by
  obtain ⟨made, _, layout', moved, scope, own⟩ :=
    c.run_moves coherent.positive coherent.layout ran
  obtain ⟨rfl, rfl⟩ := layout.unique layout'
  obtain ⟨⟨history, read⟩, _⟩ := c.run_opens ran
  refine ⟨?_, finishable.owned, finishable.owners, .inr ((c.run_reads finishable.scope read ran).mpr fresh),
    finishable.plain, finishable.restorable, fun i r found aborted => ?_⟩
  · exact (congrArg JournalScope.validate scope).trans finishable.scope
  obtain ⟨a, mem, names⟩ := aborted
  rw [layout.abortRecords_eq] at mem
  by_cases old : a ∈ abortsOf events
  · have before : Aborted E s.journal r.request :=
      ⟨a, by rw [coherent.layout.abortRecords_eq]; exact old, names⟩
    obtain ⟨phase, valid, bound, b, held, recorded, rest⟩ := finishable.proven i r found before
    rw [coherent.layout.abortRecords_eq] at recorded
    refine ⟨phase, valid, bound, b, held, ?_, rest⟩
    rw [layout.abortRecords_eq]
    exact moved.aborts recorded
  · obtain ⟨token, now, policy, rfl⟩ := (own a mem).resolve_left old
    obtain ⟨h, h', held, held', _, aborting⟩ := guarded
    obtain ⟨_, rfl, applicable⟩ :=
      Journal.abort_added coherent.positive coherent.layout layout ran mem old
    obtain ⟨primary, secondary⟩ := aborting _ applicable
    have recorded : a ∈ j.abortRecords E := by
      rw [layout.abortRecords_eq]
      exact mem
    have both : ∀ k, ∃ h, (s.node k).isAborting E host h trust a.abort = .ok () :=
      Fin.forall_fin_two.mpr ⟨⟨h, primary⟩, ⟨h', secondary⟩⟩
    obtain ⟨g, mine⟩ := both i
    exact proven_of_aborting mine recorded found (tokens _ _ _ _ rfl i r found)

theorem step (coherent : s.Coherent E older events p) (coherent' : s'.Coherent E older events' p')
    (allowed : Allowed E host trust (Matches E) s s') : s'.Finishable E host trust events' := by
  rcases allowed.view with
    ⟨call, made, journal, view⟩ | ⟨call, c, j, matched, recorded, guarded, named, rfl⟩
  · obtain ⟨rfl, _⟩ := coherent.layout.unique (journal ▸ coherent'.layout)
    have seen i r := finishable.seen (r := r) (fun c mem => (made c mem).1) (view i)
    refine ⟨journal ▸ finishable.scope, fun i => ?_, fun i => (view i).owners (finishable.owners i),
      journal ▸ finishable.readable, fun i r found => (seen i r found).1,
      fun i r found => (seen i r found).2.1, fun i r found => journal ▸ (seen i r found).2.2⟩
    rw [Node.Owned, (view i).owner.1]
    exact finishable.owned i
  · refine finishable.journal coherent recorded guarded ?_ ?_ coherent'.layout
    · cases c with
      | abort abort token now policy =>
        obtain ⟨asks, rfl⟩ := named _ _ _ _ rfl
        exact matched.2
      | _ => trivial
    · rintro abort token now policy rfl
      obtain ⟨asks, rfl⟩ := named _ _ _ _ rfl
      exact matched.1

end Finishable

theorem Start.finishable {scope : JournalScope} (start : s.Start E scope)
    (owned : ∀ i, (s.node i).Owned host) : s.Finishable E host trust [] where
  scope := by
    have created := start.created
    rw [Journal.create, unit_bind_eq_ok] at created
    obtain ⟨valid, same⟩ := created
    rw [← Except.ok.inj same]
    exact valid
  owned := owned
  owners _ _ held := (start.no_handle held).elim
  readable := .inl rfl
  plain _ _ found := (start.no_row found).elim
  restorable _ _ found := (start.no_row found).elim
  proven _ _ found := (start.no_row found).elim

theorem Start.finishes {scope : JournalScope} {start : Site T F C V} (begun : start.Start E scope)
    (owned : ∀ i, (start.node i).Owned host)
    (run : Relation.ReflTransGen (Allowed E host trust (Matches E)) start s) :
    ∃ events p, s.Coherent E (fun i => (start.node i).certified) events p ∧
      s.Finishable E host trust events :=
  begun.invariant Allowed.step (begun.finishable owned)
    (fun coherent coherent' finishable => finishable.step coherent coherent') run

namespace Finishable

theorem finish (finishable : s.Finishable E host trust events)
    (coherent : s.Coherent E older events p)
    {h : Handle} (found : (s.node i).progress = some h.prepared)
    (aborted : Aborted E s.journal h.prepared.request) (live : h.finalized = false)
    (owner : h.identity = (s.node i).identity ∧ h.role = (s.node i).role) :
    ∃ marker, (s.node i).finishAbort E host h s.journal trust (fun _ => permissive) =
      .ok ((s.node i).restored marker, { h with finalized := true }) := by
  obtain ⟨phase, valid, bound, a, held, recorded, names, id, token, decided⟩ :=
    finishable.proven i h.prepared found aborted
  obtain ⟨marker, marked, runtime, verified⟩ := finishable.restorable i h.prepared found phase
  have retained := valid.retained owner
  obtain ⟨v, historical, _⟩ := valid.evident
  have request : h.prepared.request.validate = .ok () :=
    ensure_eq_ok.mpr (Env.verifyHistorical_valid historical)
  rw [coherent.layout.abortRecords_eq] at recorded
  have admits : s.journal.Admits E trust events := by
    rcases finishable.readable with empty | ⟨history, read⟩
    · rw [empty] at recorded
      cases recorded
    · exact (coherent.layout.read read).1
  have fetched := Journal.fetchAbort_recorded admits coherent.layout request recorded names.1
    names.2.1
  have revision := (coherent.node i).bound h.prepared found bound held
  refine ⟨marker, ?_⟩
  rw [Node.finishAbort, if_neg (by simp [live])]
  simp only [bind_eq_ok, require_eq_ok, queried_eq_ok, pure_inj]
  exact ⟨bound, held, (), ensure_eq_ok.mpr phase, (), retained, _, fetched, (),
    ensure_eq_ok.mpr ⟨id, token, names.2.2.trans revision.symm, decided, names.1⟩, marker, marked,
    (), ensure_eq_ok.mpr runtime, (), verified h owner.1 owner.2, rfl⟩

end Finishable

end Site

open Site

/-- Under tokens of one digest and fresh abort identifiers, a recorded abort is finished
on every node still pending for the request, by the handle that is open on it or by a new
one. -/
theorem recorded_abort_finishes {scope : JournalScope} {start s : Site T F C V}
    (begun : start.Start E scope) (owned : ∀ i, (start.node i).Owned host)
    (run : Relation.ReflTransGen (Allowed E host trust (Matches E)) start s) {q : Request}
    (aborted : Aborted E s.journal q) {i : Fin 2} {r : Prepared}
    (pending : (s.node i).progress = some r) (mine : r.request = q) :
    (∀ h, s.handle i = some h → ∃ s',
      (Call.finishAbort i fun _ => permissive).run E host trust s = .ok s' ∧
        (s'.node i).marker = none ∧ (s'.node i).progress = none) ∧
    (s.handle i = none → ∀ authority, ∃ s' s'',
      (Call.openExisting i (s.node i).identity q authority).run E host trust s = .ok s' ∧
        (Call.finishAbort i fun _ => permissive).run E host trust s' = .ok s'' ∧
        (s''.node i).marker = none ∧ (s''.node i).progress = none) := by
  obtain ⟨events, p, coherent, finishable⟩ := begun.finishes owned run
  subst mine
  constructor
  · intro h held
    obtain ⟨live, rfl⟩ := coherent.handle_row held pending
    obtain ⟨marker, finished⟩ :=
      finishable.finish coherent pending aborted live (finishable.owners i h held)
    refine ⟨s.put i ((s.node i).restored marker, { h with finalized := true }), ?_, ?_, ?_⟩
    · simp only [Call.run, bind_eq_ok, opened_eq_ok]
      exact ⟨h, held, _, finished, rfl⟩
    · simp [Site.put, Node.restored]
    · simp [Site.put, Node.restored]
  · intro closed authority
    obtain ⟨h, opened, rfl, live, owner⟩ :=
      (finishable.proven i r pending aborted).valid.opens (finishable.owned i) authority
    obtain ⟨marker, finished⟩ := finishable.finish coherent pending aborted live owner
    let s' : Site T F C V := { s with handle := Function.update s.handle i (some h) }
    refine ⟨s', s'.put i ((s.node i).restored marker, { h with finalized := true }), ?_, ?_, ?_, ?_⟩
    · simp only [Call.run, bind_eq_ok]
      exact ⟨(), ensure_eq_ok.mpr (by simp [closed]), h, opened, rfl⟩
    · simp only [Call.run, bind_eq_ok, opened_eq_ok]
      exact ⟨h, Function.update_self .., _, finished, rfl⟩
    · simp [Site.put, Node.restored]
    · simp [Site.put, Node.restored]

namespace Sample

open Recovery.Sample (token trusted)

/-- Both nodes are bound to the cancellation of the first request, by tokens of their own. -/
def beginBoth (first second : ℕ) : List Call :=
  [openNode 0, openNode 1, .beginAbort 0 (cancellation 1) (token .abort first) 0,
    .beginAbort 1 (cancellation 1) (token .abort second) 0]

def recordAbort (n : ℕ) : Call := .abortAuthority (cancellation 1) (token .abort n) 0 asks

/-- The second node is still pending for the aborted request, with its handle open. -/
def Waiting (s : UnitSite) : Prop :=
  (∃ a ∈ s.journal.abortRecords siteEnv, Names siteEnv a.abort (request 1)) ∧
    (s.handle 1).isSome ∧ (s.node 1).progress.any (·.request = request 1)

instance (s : UnitSite) : Decidable (Waiting s) :=
  inferInstanceAs (Decidable (_ ∧ _))

/-- Both nodes hold a token of the digest the abort is recorded under. -/
def Agreed (s : UnitSite) : Prop :=
  (∀ i, (s.node i).progress.all fun r => r.abort.all fun b =>
    b.abortTokenDigest = siteEnv.tokenDigest (token .abort 1)) ∧ s.journal.abortRecords siteEnv = []

instance (s : UnitSite) : Decidable (Agreed s) :=
  inferInstanceAs (Decidable (_ ∧ _))

theorem recordAbort_matches {s : UnitSite} (agreed : Agreed s) :
    Matches siteEnv s (recordAbort 1) := by
  refine ⟨fun i r found b bound => ?_, ?_⟩
  · have same := agreed.1 i
    rw [found, Option.all_some, Option.mem_def.mp bound, Option.all_some] at same
    exact of_decide_eq_true same
  · intro a mem
    rw [agreed.2] at mem
    cases mem

/-- One token on both nodes and at the authority: the second node is restored. -/
theorem recorded_abort_finishes_restored :
    ∃ begun s s', proceed (prepareBoth :: beginBoth 1 1) site = .ok begun ∧
      (recordAbort 1).run siteEnv siteHost trusted begun = .ok s ∧ Waiting s ∧
      (Call.finishAbort 1 fun _ => permissive).run siteEnv siteHost trusted s = .ok s' ∧
      (s'.node 1).marker = none ∧ (s'.node 1).progress = none := by
  have passes : (proceed [prepareBoth] site).toOption.any (fun s₀ =>
      (proceed (beginBoth 1 1) s₀).toOption.any fun begun => decide (Agreed begun) &&
        ((recordAbort 1).run siteEnv siteHost trusted begun).toOption.any
          fun s => decide (Waiting s)) = true := by
    decide +kernel
  obtain ⟨s₀, prepared, passes⟩ := exists_of_any passes
  obtain ⟨begun, aborting, passes⟩ := exists_of_any passes
  rw [Bool.and_eq_true, decide_eq_true_eq] at passes
  obtain ⟨s, recorded, waiting⟩ := exists_of_any passes.2
  have waiting := of_decide_eq_true waiting
  have first : prepareBoth.run siteEnv siteHost trusted site = .ok s₀ := by
    simpa only [proceed, List.foldlM_cons, List.foldlM_nil, bind_pure] using prepared
  have free : Matches siteEnv site prepareBoth := by
    rintro ⟨a, mem, _⟩
    cases mem
  have run : Relation.ReflTransGen (Allowed siteEnv siteHost trusted (Matches siteEnv)) site s :=
    (Relation.ReflTransGen.head (.inl ⟨_, free, first⟩)
      (proceed_allowed (by simp [beginBoth, openNode, Matches]) aborting)).tail
      (.inl ⟨_, recordAbort_matches passes.1, recorded⟩)
  have owned : ∀ i, (site.node i).Owned siteHost := by
    unfold Node.Owned
    decide +kernel
  obtain ⟨h, held⟩ := Option.isSome_iff_exists.mp waiting.2.1
  obtain ⟨r, pending, mine⟩ := (Option.any_eq_true ..).mp waiting.2.2
  obtain ⟨s', finished, cleared⟩ := (recorded_abort_finishes site_start owned run waiting.1 pending
    (of_decide_eq_true mine)).1 h held
  refine ⟨begun, s, s', ?_, recorded, waiting, finished, cleared⟩
  rw [proceed, List.foldlM_cons, bind_eq_ok]
  exact ⟨s₀, first, aborting⟩

/-- The second node is bound under another token of the same abort: the authority records
the abort, and the node never accepts its proof. -/
theorem other_token_strands_node : site.Start siteEnv Recovery.Sample.scope ∧
    ∃ begun s, proceed (prepareBoth :: beginBoth 1 9) site = .ok begun ∧
      (recordAbort 1).run siteEnv siteHost trusted begun = .ok s ∧ Waiting s ∧
      (Call.finishAbort 1 fun _ => permissive).run siteEnv siteHost trusted s =
        .error (.message "pending abort proof mismatch") := by
  have passes : (proceed (prepareBoth :: beginBoth 1 9) site).toOption.any (fun begun =>
      ((recordAbort 1).run siteEnv siteHost trusted begun).toOption.any fun s =>
        Waiting s ∧ refusal ((Call.finishAbort 1 fun _ => permissive).run siteEnv siteHost trusted s) =
          some (.message "pending abort proof mismatch")) = true := by
    decide +kernel
  obtain ⟨begun, aborting, passes⟩ := exists_of_any passes
  obtain ⟨s, recorded, passes⟩ := exists_of_any passes
  obtain ⟨waiting, refused⟩ := of_decide_eq_true passes
  exact ⟨site_start, begun, s, aborting, recorded, waiting, eq_error_of_refusal refused⟩

end Sample

end TerrapiVault.Maintenance
