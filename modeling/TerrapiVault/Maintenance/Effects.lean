import TerrapiVault.Maintenance.Abort
import TerrapiVault.Recovery.Exclusion

/-! What each call of a certified maintenance does to the file it works on, said once.
A node call either answers a repeated request or rewrites the pending row it has just
validated. -/
namespace TerrapiVault.Maintenance

open Replication
open Recovery

variable {T : Type → Type} {E : Env T} {F C V : Type} {host : Host F C V} {trust : Trust}
  {expected : Request} {r : Prepared} {abort : MaintenanceAbort}

namespace Node

/-- The requests whose certificate the node stores. -/
def certified (n : Node F C V) : List Request :=
  (n.segments.certificates.getD []).map fun row => row.2.request

variable {n : Node F C V} {h : Handle}

theorem checkProgress_eq_ok {exact : Option Prepared}
    (ok : n.checkProgress E expected exact = .ok r) :
    n.progress = some r ∧ (∀ e ∈ exact, r = e) ∧ r.request = expected := by
  simp only [checkProgress, checked_ok, queried_eq_ok] at ok
  obtain ⟨_, found, _, same, ⟨_, request⟩, _, _, rfl⟩ := ok
  exact ⟨found, same, request⟩

theorem validatePending_eq_ok {binding : Binding} {exact : Option Prepared}
    {inspection : PendingInspection}
    (ok : n.validatePending E host binding expected trust exact = .ok (inspection, r)) :
    n.progress = some r ∧ (∀ e ∈ exact, r = e) ∧ r.request = expected ∧
      n.identity = binding.identity ∧ n.role = binding.role := by
  simp only [validatePending, run_ok] at ok
  obtain ⟨_, marker, _, progress, _, _, _, _, _, _, _, rfl⟩ := ok
  obtain ⟨found, same, request⟩ := checkProgress_eq_ok progress
  simp only [checkMarker, checked_ok] at marker
  obtain ⟨_, _, _, _, _, _, owner, _⟩ := marker
  exact ⟨found, same, request, owner⟩

theorem validateRetained_pending (ok : n.validateRetained E host h trust = .ok ()) :
    ∃ inspection, n.validatePending E host h.binding h.prepared.request trust (some h.prepared) =
      .ok (inspection, h.prepared) := by
  simp only [validateRetained, bind_eq_ok, pure_eq] at ok
  obtain ⟨⟨inspection, r⟩, valid, _⟩ := ok
  obtain rfl := (validatePending_eq_ok valid).2.1 h.prepared rfl
  exact ⟨inspection, valid⟩

theorem validateRetained_eq_ok (ok : n.validateRetained E host h trust = .ok ()) :
    n.progress = some h.prepared ∧ n.identity = h.identity ∧ n.role = h.role := by
  obtain ⟨_, valid⟩ := validateRetained_pending ok
  obtain ⟨found, _, _, owner⟩ := validatePending_eq_ok valid
  exact ⟨found, owner⟩

theorem liveProgress_eq_ok (ok : n.liveProgress E host h trust = .ok r) :
    n.progress = some r ∧ r.request = h.prepared.request := by
  simp only [liveProgress, run_ok] at ok
  obtain ⟨⟨inspection, r⟩, valid, rfl⟩ := ok
  obtain ⟨found, _, request, _⟩ := validatePending_eq_ok valid
  exact ⟨found, request⟩

theorem replaceProgress_eq_ok {next : Prepared} {authorize : Result Unit} {after : Node F C V × Handle}
    (ok : n.replaceProgress E host h trust next authorize = .ok after) :
    n.validateRetained E host h trust = .ok () ∧ authorize = .ok () ∧
      after = ({ n with progress := some next }, { h with prepared := next }) := by
  simp only [replaceProgress, unit_bind_eq_ok, pure_inj] at ok
  exact ⟨ok.1, ok.2.1, ok.2.2.symm⟩

theorem insertSequence_mem {α : Type} {rows rows' : List (ℕ × α)} {row : ℕ × α}
    (ok : insertSequence rows row = .ok rows') (r : ℕ × α) : r ∈ rows' ↔ r ∈ rows ∨ r = row := by
  obtain ⟨_, absent, rfl⟩ := insertSequence_eq_ok.mp ok
  have other : ∀ r ∈ rows, r.1 < row.1 ∨ row.1 < r.1 := by
    intro r mem
    exact lt_or_gt_of_ne (absent r mem)
  simp only [Table.put, List.mem_append, List.mem_cons, List.mem_filter, decide_eq_true_eq]
  constructor
  · rintro (⟨mem, _⟩ | same | ⟨mem, _⟩)
    · exact .inl mem
    · exact .inr same
    · exact .inl mem
  · rintro (mem | same)
    · rcases other r mem with below | above
      · exact .inl ⟨mem, below⟩
      · exact .inr (.inr ⟨mem, above⟩)
    · exact .inr (.inl same)

theorem certify_certificates {old : Prepared} {segments : Segments}
    (ok : n.certify old = .ok segments) (q : Request) :
    q ∈ (segments.certificates.getD []).map (fun row => row.2.request) ↔
      q ∈ n.certified ∨ q = old.request := by
  simp only [certify, run_ok] at ok
  obtain ⟨_, _, _, _, certificates, inserted, _, rfl⟩ := ok
  simp only [certified, List.mem_map, Option.getD_some, insertSequence_mem inserted]
  constructor
  · rintro ⟨row, mem | rfl, rfl⟩
    · exact .inl ⟨row, mem, rfl⟩
    · exact .inr rfl
  · rintro (⟨row, mem, rfl⟩ | rfl)
    · exact ⟨row, .inl mem, rfl⟩
    · exact ⟨_, .inr rfl, rfl⟩

end Node

/-- The calls on one node. -/
inductive Kind where
  | decide
  | apply (random : Bytes32)
  | complete
  | finalize
  | abort (document : MaintenanceAbort) (token : String)
  | restore

/-- What a call on one node may do to its file and to the handle that makes it. -/
inductive Turn (E : Env T) (host : Host F C V) (trust : Trust) (j : Journal T) (n : Node F C V)
    (h : Handle) : Kind → Node F C V → Handle → Prop
  | again (kind : Kind) : Turn E host trust j n h kind n h
  | decide (policy : Policy) (c : CommittedTransition)
    (fetched : j.fetch E h.prepared.request trust policy = .ok c)
    (retained : n.validateRetained E host h trust = .ok ())
    (phase : h.prepared.phase = .prepared) (next : Prepared)
    (row : next = { h.prepared with phase := .decided, decision := some c.tokenDigest }) :
    Turn E host trust j n h .decide { n with progress := some next } { h with prepared := next }
  | apply (policy : Policy) (c : CommittedTransition)
    (fetched : j.fetch E h.prepared.request trust policy = .ok c)
    (retained : n.validateRetained E host h trust = .ok ())
    (phase : h.prepared.phase = .decided) (segments : Segments)
    (certified : n.certify h.prepared = .ok segments) (next : Prepared)
    (row : next = { h.prepared with phase := .applied }) (random : Bytes32)
    (head : n.store.head h.identity = .ok (h.prepared.plan.localPlan h.role).head)
    (seen : PendingInspection × Prepared)
    (valid : (n.cutTo segments (h.prepared.plan.localPlan h.role).checkpoint next
      random).validatePending E host h.binding h.prepared.request trust (some next) = .ok seen) :
    Turn E host trust j n h (.apply random)
      (n.cutTo segments (h.prepared.plan.localPlan h.role).checkpoint next random)
      { h with prepared := next }
  | complete (policy : Policy) (c : CompletedTransition)
    (fetched : j.fetchCompleted E h.prepared.request trust policy = .ok c)
    (retained : n.validateRetained E host h trust = .ok ())
    (phase : h.prepared.phase = .applied) (next : Prepared)
    (row : next = { h.prepared with phase := .complete, completion := some c.completion }) :
    Turn E host trust j n h .complete { n with progress := some next } { h with prepared := next }
  | finalize (policy : Policy) (c : CompletedTransition)
    (fetched : j.fetchCompleted E h.prepared.request trust policy = .ok c)
    (retained : n.validateRetained E host h trust = .ok ())
    (phase : h.prepared.phase = .complete) (runtime : ℕ) (readiness : Option Prefix)
    (completion : Option (ℕ × Id × Id × Id)) :
    Turn E host trust j n h .finalize
      { n with
        runtime := runtime
        store := { n.store with readiness := readiness }
        segments := { n.segments with completion := completion }
        marker := none
        progress := none }
      { h with finalized := true }
  | abort (abort : MaintenanceAbort) (token : String)
    (binds : BindsAbort E abort h.prepared.request)
    (retained : n.validateRetained E host h trust = .ok ())
    (phase : h.prepared.phase = .prepared ∨ h.prepared.phase = .decided)
    (decided : abort.decided = true ↔ h.prepared.phase = .decided) (next : Prepared)
    (row : next = { h.prepared with
      format := 2, phase := .aborting, abort := some (abortLocal E abort token) }) :
    Turn E host trust j n h (.abort abort token) { n with progress := some next } { h with prepared := next }
  | restore (policy : Policy) (c : CommittedMaintenanceAbort)
    (fetched : j.fetchAbort E h.prepared.request trust policy = .ok c)
    (retained : n.validateRetained E host h trust = .ok ())
    (phase : h.prepared.phase = .aborting)
    (proof : ∃ bound ∈ h.prepared.abort, c.abort.abortedRevision = bound.abortedRevision)
    (digest : c.abort.abortedRequest = E.digest h.prepared.request) (runtime : ℕ) :
    Turn E host trust j n h .restore { n with runtime := runtime, marker := none, progress := none }
      { h with finalized := true }

namespace Node

variable {n n' : Node F C V} {h h' : Handle} {j : Journal T} {policy : ℕ → Policy}

theorem recordDecided_turn (ok : n.recordDecided E host h j trust policy = .ok (n', h')) :
    Turn E host trust j n h .decide n' h' := by
  simp only [recordDecided, run_ok] at ok
  obtain ⟨verified, _, ok⟩ := ok
  split_ifs at ok with again
  · simp only [run_ok] at ok
    obtain ⟨_, _, _, rfl, rfl⟩ := ok
    exact .again _
  · simp only [checked_ok] at ok
    obtain ⟨⟨phase, _⟩, ok⟩ := ok
    obtain ⟨retained, authorized, same⟩ := replaceProgress_eq_ok ok
    obtain ⟨rfl, rfl⟩ := Prod.mk.injEq .. ▸ same
    simp only [checked_ok] at authorized
    obtain ⟨c, fetched, digest⟩ := authorized
    exact .decide (policy 0) c fetched retained phase _ (by rw [digest])

theorem applyDecided_turn {random : Bytes32}
    (ok : n.applyDecided E host h j trust policy random = .ok (n', h')) :
    Turn E host trust j n h (.apply random) n' h' := by
  rw [applyDecided] at ok
  split_ifs at ok with again
  · simp only [run_ok] at ok
    obtain ⟨_, _, rfl, rfl⟩ := ok
    exact .again _
  · simp only [checked_ok] at ok
    obtain ⟨⟨phase, _⟩, retained, c, fetched, _, _, _, _, _, head, ⟨_, rfl⟩, segments, certified,
      seen, valid, rfl, rfl⟩ := ok
    exact .apply (policy 0) c fetched retained phase segments certified _ rfl random head seen valid

theorem recordComplete_turn (ok : n.recordComplete E host h j trust policy = .ok (n', h')) :
    Turn E host trust j n h .complete n' h' := by
  simp only [recordComplete, run_ok] at ok
  obtain ⟨c, fetched, ok⟩ := ok
  split_ifs at ok with again
  · simp only [run_ok] at ok
    obtain ⟨_, rfl, rfl⟩ := ok
    exact .again _
  · simp only [checked_ok] at ok
    obtain ⟨⟨phase, _⟩, ok⟩ := ok
    obtain ⟨retained, _, same⟩ := replaceProgress_eq_ok ok
    obtain ⟨rfl, rfl⟩ := Prod.mk.injEq .. ▸ same
    exact .complete (policy 0) c fetched retained phase _ rfl

theorem finalizeNode_turn (ok : n.finalizeNode E host h j trust policy = .ok (n', h')) :
    Turn E host trust j n h .finalize n' h' := by
  rw [finalizeNode] at ok
  split_ifs at ok with again
  · simp only [run_ok] at ok
    obtain ⟨_, _, rfl, rfl⟩ := ok
    exact .again _
  · simp only [checked_ok] at ok
    obtain ⟨⟨phase, _⟩, retained, c, fetched, _, _, _, rfl, rfl⟩ := ok
    exact .finalize (policy 0) c fetched retained phase _ _ _

theorem beginAbort_turn {token : String} {now : ℕ}
    (ok : n.beginAbort E host h trust abort token now = .ok (n', h')) :
    Turn E host trust j n h (.abort abort token) n' h' := by
  simp only [beginAbort, checked_ok] at ok
  obtain ⟨_, _, binds, ok⟩ := ok
  split_ifs at ok with again
  · simp only [run_ok] at ok
    obtain ⟨_, rfl, rfl⟩ := ok
    exact .again _
  · simp only [checked_ok] at ok
    obtain ⟨⟨phase, decided, _⟩, ok⟩ := ok
    obtain ⟨retained, _, same⟩ := replaceProgress_eq_ok ok
    obtain ⟨rfl, rfl⟩ := Prod.mk.injEq .. ▸ same
    exact .abort abort token binds retained phase decided _ rfl

theorem finishAbort_turn (ok : n.finishAbort E host h j trust policy = .ok (n', h')) :
    Turn E host trust j n h .restore n' h' := by
  rw [finishAbort] at ok
  split_ifs at ok with again
  · simp only [run_ok] at ok
    obtain ⟨_, _, rfl, rfl⟩ := ok
    exact .again _
  · simp only [checked_ok, require_eq_ok] at ok
    obtain ⟨bound, found, phase, retained, c, fetched, proof, _, _, _, _, rfl, rfl⟩ := ok
    exact .restore (policy 0) c fetched retained phase ⟨bound, found, proof.2.2.1⟩ proof.2.2.2.2 _

theorem isAborting_eq_ok (ok : n.isAborting E host h trust abort = .ok ()) :
    ∃ r bound, n.liveProgress E host h trust = .ok r ∧ r.abort = some bound ∧
      r.phase = .aborting ∧ E.digest r.request = abort.abortedRequest ∧
      r.request.id = abort.abortedRequestId ∧ r.request.revision = abort.abortedRevision ∧
      bound.abortId = abort.id ∧ bound.decided = abort.decided ∧
      bound.abortedRevision = abort.abortedRevision := by
  simp only [isAborting, checked_ok, require_eq_ok] at ok
  obtain ⟨r, live, bound, found, phase, _, digest, id, revision, same⟩ := ok
  exact ⟨r, bound, live, found, phase, digest, id, revision, same⟩

theorem isAborting_row (ok : n.isAborting E host h trust abort = .ok ()) :
    ∃ r, n.progress = some r ∧ r.phase = .aborting := by
  obtain ⟨r, _, live, _, phase, _⟩ := isAborting_eq_ok ok
  exact ⟨r, (liveProgress_eq_ok live).1, phase⟩

theorem existing_eq_ok {opened : Opened} {found : Bool}
    (ok : n.existing E host opened trust r = .ok found) :
    found = false ∧ n.marker = none ∨
      found = true ∧ n.progress = some r ∧ n.marker.isSome := by
  simp only [existing, run_ok] at ok
  obtain ⟨_, ok⟩ := ok
  split_ifs at ok with absent
  · exact .inl ⟨(Except.ok.inj ok).symm, absent⟩
  · simp only [run_ok] at ok
    obtain ⟨⟨inspection, r'⟩, valid, rfl⟩ := ok
    obtain ⟨progress, same, _⟩ := validatePending_eq_ok valid
    rw [same r rfl] at progress
    exact .inr ⟨rfl, progress, Option.isSome_iff_ne_none.mpr absent⟩

/-- The rows `prepare_pair` writes. -/
def prepared (E : Env T) (n : Node F C V) (r : Prepared) : Node F C V :=
  { n with
    runtime := 5
    store := { n.store with readiness := none }
    marker := some ⟨1, n.identity, n.role, n.runtime, E.digest r.request, E.digest r.plan⟩
    progress := some r }

theorem writePrepared_eq_ok :
    n.writePrepared E r = .ok n' ↔ (n.runtime = 3 ∨ n.runtime = 4) ∧ n' = n.prepared E r := by
  rw [writePrepared, unit_bind_eq_ok, ensure_eq_ok, pure_eq, Except.ok.injEq,
    eq_comm (b := n')]
  rfl

theorem openExisting_eq_ok {identity : Identity} {authority : Option CertifiedAuthority}
    (ok : n.openExisting E host identity expected trust authority = .ok h) :
    n.progress = some h.prepared ∧ h.finalized = false ∧ h.prepared.request = expected ∧
      n.identity = h.identity ∧ n.role = h.role ∧
      n.validateRetained E host h trust = .ok () := by
  simp only [openExisting, run_ok] at ok
  obtain ⟨_, marker, _, _, ⟨inspection, r⟩, valid, ⟨inspection', r'⟩, again, rfl⟩ := ok
  obtain ⟨found, _, request, owner⟩ := validatePending_eq_ok valid
  refine ⟨found, rfl, request, owner.1, owner.2, ?_⟩
  rw [validateRetained, bind_eq_ok]
  exact ⟨_, request ▸ again, rfl⟩

end Node

theorem unlessDone_eq_ok {α : Type} {done : Bool} {a b : α} {step : Result α} :
    unlessDone done a step = .ok b ↔ done = true ∧ b = a ∨ done = false ∧ step = .ok b := by
  cases done <;> simp [unlessDone, eq_comm]

theorem preparePair_effect {node node' : Fin 2 → Node F C V} {opened : Fin 2 → Opened}
    {plan : PairPlan} {request : Request} {token : String} {now writes : ℕ}
    (ok : preparePair E host node opened plan request token now trust writes = .ok node') :
    ∀ i, ((node i).marker = none ∨ (node i).progress = some (.fresh plan request token)) ∧
      (node' i = node i ∨ (node i).marker = none ∧
        (node i).preflight E host (opened i) (.fresh plan request token) = .ok () ∧
        ((node i).runtime = 3 ∨ (node i).runtime = 4) ∧
        node' i = (node i).prepared E (.fresh plan request token)) := by
  simp only [preparePair, run_ok] at ok
  obtain ⟨_, _, _, _, _, first, existing, second, existing', checked, checked', primary, written,
    secondary, written', rfl⟩ := ok
  have one : ∀ {n m : Node F C V} {o : Opened} {found : Bool} {skipped : ℕ},
      n.existing E host o trust (.fresh plan request token) = .ok found →
      unlessDone found () (n.preflight E host o (.fresh plan request token)) = .ok () →
      unlessDone (decide (found = true ∨ writes < skipped)) n (n.writePrepared E (.fresh plan request token)) = .ok m →
      (n.marker = none ∨ n.progress = some (.fresh plan request token)) ∧
        (m = n ∨ n.marker = none ∧
          n.preflight E host o (.fresh plan request token) = .ok () ∧
          (n.runtime = 3 ∨ n.runtime = 4) ∧ m = n.prepared E (.fresh plan request token)) := by
    intro n m o found skipped exist check write
    rcases Node.existing_eq_ok exist with ⟨rfl, absent⟩ | ⟨rfl, progress, _⟩
    · refine ⟨.inl absent, ?_⟩
      rcases unlessDone_eq_ok.mp write with ⟨_, rfl⟩ | ⟨_, write⟩
      · exact .inl rfl
      · obtain ⟨runtime, rfl⟩ := Node.writePrepared_eq_ok.mp write
        exact .inr ⟨absent, check, runtime, rfl⟩
    · rcases unlessDone_eq_ok.mp write with ⟨_, rfl⟩ | ⟨none, _⟩
      · exact ⟨.inr progress, .inl rfl⟩
      · cases none
  intro i
  rcases Recovery.participant_cases i with rfl | rfl
  · rw [Function.update_of_ne (by decide), Function.update_self]
    exact one existing checked written
  · rw [Function.update_self]
    exact one existing' checked' written'

end TerrapiVault.Maintenance
