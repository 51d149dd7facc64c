import TerrapiVault.Maintenance.Pending

/-! The forward calls of a certified maintenance. Each one is a transaction on one node
that asks the journal inside it; a handle keeps the row it last wrote or read. -/
namespace TerrapiVault.Maintenance

open Replication
open Recovery

/-- How an ordinary node was opened. -/
structure Opened where
  transitionTrust : Option Trust
  certifiedAuthority : Option CertifiedAuthority

/-- `PendingMaintenanceHandle`; it holds the node lock. -/
structure Handle where
  identity : Identity
  role : Role
  inspection : PendingInspection
  prepared : Prepared
  finalized : Bool
  certifiedAuthority : Option CertifiedAuthority

def Handle.binding (h : Handle) : Binding := ⟨h.identity, h.role, h.certifiedAuthority⟩

/-- The record `prepare_pair` writes on both nodes. -/
def Prepared.fresh (plan : PairPlan) (request : Request) (token : String) : Prepared :=
  ⟨1, .prepared, plan, request, token, none, none, none⟩

/-- A step that is skipped where it has been made. -/
def unlessDone {α : Type} (done : Bool) (a : α) (step : Result α) : Result α :=
  if done then pure a else step

/-- `INSERT` under a sequence that is the primary key. -/
def insertSequence {α : Type} (rows : List (ℕ × α)) (row : ℕ × α) : Result (List (ℕ × α)) := do
  let key ← sqlInteger row.1
  Checked.ensure (∀ r ∈ rows, r.1 ≠ key) Fault.constraintViolation
  pure (Table.put Prod.fst rows row)

theorem insertSequence_eq_ok {α : Type} {rows rows' : List (ℕ × α)} {row : ℕ × α} :
    insertSequence rows row = .ok rows' ↔
      row.1 < 2 ^ 63 ∧ (∀ r ∈ rows, r.1 ≠ row.1) ∧ Table.put Prod.fst rows row = rows' := by
  simp only [insertSequence, run_ok, sqlInteger_eq_ok, Checked.ensure_eq_ok, exists_const]
  constructor
  · rintro ⟨_, ⟨small, rfl⟩, absent, same⟩
    exact ⟨small, absent, same⟩
  · rintro ⟨small, absent, same⟩
    exact ⟨_, ⟨small, rfl⟩, absent, same⟩

variable {T : Type → Type} (E : Env T) {F C V : Type} (host : Host F C V)

namespace Node

variable (n : Node F C V)

def verifyOwner (trust : Option Trust) : Result Unit := do
  ensure (n.initial = host.initial) "typed node runtime mismatch"
  let format ← n.historyFormat host n.runtime
  host.verifyHistory n.files format
  n.segments.verifyCertified E n.store.base n.identity n.role trust (host.terminated n.files)
  host.verifyCapacity n.files n.store
  host.verifyFormats n.files
  host.verifySchema n.files n.store

def admission (opened : Opened) : Result Unit := do
  n.verifyOwner E host opened.transitionTrust
  n.segments.verifyLiveCertified E opened.certifiedAuthority false
  host.ordinary n.files n.store n.segments

def planCompaction (opened : Opened) : Result CompactionPlan := do
  host.noLossRecovery n.files
  n.admission E host opened
  let (checkpoint, _) ← n.store.current host.schema n.identity false
  let head ← n.store.head n.identity
  let covered := n.store.log.filter fun e => e.sequence ≤ checkpoint.sequence
  n.publication.forM (n.validateManifest E host)
  let active ← host.active n.files n.identity n.role
  pure {
    format := 1
    role := n.role
    contract := host.contract
    membership := active.map Active.membership
    recoveryAnchor := active.map Active.checkpoint
    head := head
    checkpoint := checkpoint
    coveredJournalBytes := (covered.map fun e => E.bytes (E.encode e)).sum
    coveredJournalEntries := covered.length
    unresolvedTail := head.length ≠ checkpoint.sequence
    publication := n.publication
    retainedReceipts := checkpoint.sequence }

/-- What `apply_decided` will need of the state before it. -/
def requireAppliable : Result Unit := do
  n.requireUnpinned
  if n.segments.certificates.isSome then
    ensure (n.segments.version = 3) "certified maintenance requires certified maintenance format"
  else
    ensure (n.segments.version = 1 ∧ n.segments.root = none ∧ n.segments.history = none)
      "certified maintenance requires a node without legacy compaction"

/-- The first loop of `prepare_pair`: is the node prepared for exactly this? -/
def existing (opened : Opened) (trust : Trust) (prepared : Prepared) : Result Bool := do
  host.noLossRecovery n.files
  if n.marker = none then pure false
  else do
    let _ ← n.validatePending E host ⟨n.identity, n.role, opened.certifiedAuthority⟩
      prepared.request trust (some prepared)
    pure true

def latestCertificate : Result (Option CertificateRecord) :=
  if n.segments.certificates.isSome then do
    let latest ← queried n.segments.latest
    ensure (E.bytes (E.encode latest) ≤ maxCertificateBytes) "previous certificate limit"
    pure (some latest)
  else pure none

/-- The second loop, for a node that is not. -/
def preflight (opened : Opened) (prepared : Prepared) : Result Unit := do
  let fresh ← n.planCompaction E host opened
  let own := prepared.plan.localPlan n.role
  ensure (fresh = own) "stale pending participant"
  n.requireAppliable
  let previous ← n.latestCertificate E
  validateRecord E ⟨1, prepared.plan, prepared.request, prepared.token⟩ n.identity n.role previous
  let publication ← require own.publication "pending publication missing"
  n.verifyPublicationIn E host publication

/-- The third loop: both rows, and ordinary admission closes. -/
def writePrepared (prepared : Prepared) : Result (Node F C V) := do
  ensure (n.runtime = 3 ∨ n.runtime = 4) "unsupported pending previous runtime"
  pure { n with
    runtime := 5
    store := { n.store with readiness := none }
    marker := some ⟨1, n.identity, n.role, n.runtime, E.digest prepared.request,
      E.digest prepared.plan⟩
    progress := some prepared }

end Node

/-- `prepare_pair_at`. Only the first `writes` nodes are written before the process dies;
2 is a call that returns. -/
def preparePair (node : Fin 2 → Node F C V) (opened : Fin 2 → Opened) (plan : PairPlan)
    (request : Request) (token : String) (now : ℕ) (trust : Trust) (writes : ℕ) :
    Result (Fin 2 → Node F C V) := do
  plan.validateCertified E
  let _ ← E.verifyIssuance token trust request now
  ensure ((node 0).role = .primary ∧ (node 1).role = .secondary ∧
    (node 0).identity = (node 1).identity) "pending pair mismatch"
  let prepared := Prepared.fresh plan request token
  ensure (E.bytes (E.encode prepared) ≤ 256 * 1024 ∧ token.utf8ByteSize ≤ maxToken)
    "pending record limit"
  let first ← (node 0).existing E host (opened 0) trust prepared
  let second ← (node 1).existing E host (opened 1) trust prepared
  unlessDone first () ((node 0).preflight E host (opened 0) prepared)
  unlessDone second () ((node 1).preflight E host (opened 1) prepared)
  let primary ← unlessDone (first ∨ writes < 1) (node 0) ((node 0).writePrepared E prepared)
  let secondary ← unlessDone (second ∨ writes < 2) (node 1) ((node 1).writePrepared E prepared)
  pure (Function.update (Function.update node 0 primary) 1 secondary)

/-- `open_existing_with_authority`: validated read-only, then once more. -/
def Node.openExisting (n : Node F C V) (identity : Identity) (expected : Request) (trust : Trust)
    (authority : Option CertifiedAuthority) : Result Handle := do
  ensure (identity.schema = host.contract.schema ∧ 0 < identity.epoch ∧ identity.cluster ≠ "" ∧
    identity.tenant ≠ "") "invalid pending identity"
  let marker ← require n.marker "node has no pending certified maintenance"
  ensure (E.bytes (E.encode marker) ≤ 64 * 1024) "pending singleton mismatch"
  let binding : Binding := ⟨identity, marker.role, authority⟩
  let (inspection, prepared) ← n.validatePending E host binding expected trust none
  let _ ← n.validatePending E host binding expected trust (some prepared)
  pure ⟨identity, marker.role, inspection, prepared, false, authority⟩

/-- `PreparedPolicy`: only the prepared request and its participants pass. -/
def preparedPolicy (external : Policy) (request : Request) : Policy where
  continuity ask scope q := do
    ensure (q = request) "pending decision request mismatch"
    external.continuity ask scope q
  prepared scope q member := do
    ensure (q = request ∧ ∃ i, member = request.participants i)
      "pending decision participant mismatch"
    external.prepared scope q member
  applied := external.applied
  historicalCompletion _ _ _ := throw (.message "historical transition not authorized")
  abortApplicable _ _ := throw (.message "maintenance abort evidence missing")

/-- `AppliedPolicy`: only the node's own participant passes. -/
def appliedPolicy (external : Policy) (participant : Participant) : Policy where
  continuity := external.continuity
  prepared := external.prepared
  applied scope decision member := do
    ensure (member = participant) "pending ACK participant mismatch"
    external.applied scope decision member
  historicalCompletion _ _ _ := throw (.message "historical transition not authorized")
  abortApplicable _ _ := throw (.message "maintenance abort evidence missing")

namespace Node

variable (n : Node F C V) (h : Handle) (j : Journal T) (trust : Trust) (policy : ℕ → Policy)

/-- `validate_retained`: the row is still the one the handle holds. -/
def validateRetained : Result Unit := do
  let _ ← n.validatePending E host h.binding h.prepared.request trust (some h.prepared)
  pure ()

def liveProgress : Result Prepared := do
  let (_, prepared) ← n.validatePending E host h.binding h.prepared.request trust none
  pure prepared

def replaceProgress (next : Prepared) (authorize : Result Unit) :
    Result (Node F C V × Handle) := do
  n.validateRetained E host h trust
  authorize
  pure ({ n with progress := some next }, { h with prepared := next })

/-- The journal is asked at most twice in a call, `policy` by ask. -/
def recordDecided : Result (Node F C V × Handle) := do
  let verified ← E.verifyHistorical h.prepared.token trust h.prepared.request
  if h.prepared.phase = .decided then do
    let decision ← j.fetch E h.prepared.request trust (policy 0)
    ensure (h.prepared.decision = some decision.tokenDigest) "pending decided conflict"
    pure (n, h)
  else do
    ensure (h.prepared.phase = .prepared ∧ h.prepared.decision = none)
      "invalid pending decision transition"
    let next := { h.prepared with phase := .decided, decision := some verified.tokenDigest }
    n.replaceProgress E host h trust next do
      let decision ← j.fetch E h.prepared.request trust (policy 0)
      ensure (decision.tokenDigest = verified.tokenDigest) "pending decision token mismatch"

/-- The history rows so far; a first certificate creates the tables. -/
def historyRows : Result (List (ℕ × PairPlan)) :=
  if n.segments.certificates.isSome then queried n.segments.history
  else if n.segments.root = none ∧ n.segments.history = none then pure []
  else throw .sqlite

/-- The certificate tables after a compaction under `old`. -/
def certify (old : Prepared) : Result Segments := do
  let own := old.plan.localPlan n.role
  let prior := n.segments.certificates.isSome
  let rows ← n.historyRows
  let history ← insertSequence rows (own.checkpoint.sequence, old.plan)
  let certificates ← insertSequence (n.segments.certificates.getD [])
    (own.checkpoint.sequence, ⟨1, old.plan, old.request, old.token⟩)
  ensure (n.segments.version = if prior then 3 else 1)
    (if prior then "pending maintenance format mismatch"
      else "pending maintenance format transition failed")
  pure {
    version := 3
    root := if prior then n.segments.root else some own.head.base
    history := some history
    certificates := some certificates
    completion := n.segments.completion }

/-- The log is cut to the checkpoint of the pending plan. -/
def cutTo (segments : Segments) (checkpoint : Prefix) (next : Prepared) (random : Bytes32) :
    Node F C V :=
  { n with
    segments := segments
    store := n.store.pruned checkpoint random
    progress := some next }

def applyDecided (random : Bytes32) : Result (Node F C V × Handle) :=
  if h.prepared.phase = .applied then do
    let _ ← j.fetch E h.prepared.request trust (policy 0)
    pure (n, h)
  else do
    ensure (h.prepared.phase = .decided ∧ h.prepared.decision.isSome)
      "invalid pending apply transition"
    let old := h.prepared
    let next := { old with phase := .applied }
    n.validateRetained E host h trust
    let decision ← j.fetch E old.request trust (policy 0)
    ensure (some decision.tokenDigest = old.decision) "pending apply decision mismatch"
    n.requireUnpinned
    let own := old.plan.localPlan h.role
    let (checkpoint, _) ← n.store.current host.schema h.identity true
    let head ← n.store.head h.identity
    ensure (checkpoint = own.checkpoint ∧ head = own.head) "pending apply cut changed"
    let segments ← n.certify old
    let applied := n.cutTo segments own.checkpoint next random
    let _ ← applied.validatePending E host h.binding old.request trust (some next)
    pure (applied, { h with prepared := next })

/-- The node is read, the journal written. -/
def acknowledgeApplied : Result (Journal T) := do
  ensure (h.prepared.phase = .applied) "pending node is not applied"
  let participant := h.prepared.request.participants (side h.role)
  n.validateRetained E host h trust
  let decision ← j.fetch E h.prepared.request trust (policy 0)
  ensure (some decision.tokenDigest = h.prepared.decision) "pending ACK decision mismatch"
  j.acknowledge E decision participant trust (appliedPolicy (policy 1) participant)

def recordComplete : Result (Node F C V × Handle) := do
  let completed ← j.fetchCompleted E h.prepared.request trust (policy 0)
  if h.prepared.phase = .complete then do
    ensure (h.prepared.completion = some completed.completion) "pending node completion conflict"
    pure (n, h)
  else do
    ensure (h.prepared.phase = .applied ∧ h.prepared.completion = none)
      "invalid pending completion transition"
    let next := { h.prepared with phase := .complete, completion := some completed.completion }
    n.replaceProgress E host h trust next do
      let current ← j.fetchCompleted E h.prepared.request trust (policy 1)
      ensure (current.completion = completed.completion) "pending completion changed"

/-- The archive replaces the one of the certificate before. -/
def finalizeNode : Result (Node F C V × Handle) :=
  if h.finalized then do
    let _ ← j.fetchCompleted E h.prepared.request trust (policy 0)
    pure (n, h)
  else do
    ensure (h.prepared.phase = .complete ∧ h.prepared.completion.isSome)
      "pending node is not complete"
    n.validateRetained E host h trust
    let completed ← j.fetchCompleted E h.prepared.request trust (policy 0)
    ensure (some completed.completion = h.prepared.completion ∧
      some completed.committed.tokenDigest = h.prepared.decision)
      "pending finalization proof mismatch"
    let marker ← queried n.marker
    pure ({ n with
      runtime := marker.previousRuntime
      store := { n.store with readiness := some (h.prepared.plan.localPlan h.role).checkpoint }
      segments := { n.segments with completion := some (1, completed.committed.request.id,
        completed.committed.tokenDigest, completed.completion) }
      marker := none
      progress := none }, { h with finalized := true })

end Node

/-- `decide_prepared_at`. -/
def decidePrepared (primary secondary : Handle) (j : Journal T) (now : ℕ) (trust : Trust)
    (policy : ℕ → Policy) : Result (Journal T × CommittedTransition) := do
  ensure (primary.role = .primary ∧ secondary.role = .secondary ∧
    primary.identity = secondary.identity ∧ primary.prepared = secondary.prepared)
    "pending decision pair mismatch"
  let prepared := primary.prepared
  ensure (prepared.phase = .prepared ∧ primary.inspection.role = .primary ∧
    secondary.inspection.role = .secondary ∧
    primary.inspection.checkpoint = prepared.plan.primary.checkpoint ∧
    secondary.inspection.checkpoint = prepared.plan.secondary.checkpoint)
    "unsupported pending decision state"
  let _ ← E.verifyIssuance prepared.token trust prepared.request now
  j.decide E prepared.request prepared.token now trust
    (preparedPolicy (policy 0) prepared.request)

/-- Derived from what the transition is, never chosen. -/
def completionId (request : Request) (tokenDigest : Id) (acknowledgements : Fin 2 → Bool) : Id :=
  E.digest ("terrapi-certified-completion", request.id, tokenDigest, acknowledgements)

def completeAuthority (node : Fin 2 → Node F C V) (primary secondary : Handle) (j : Journal T)
    (trust : Trust) (policy : ℕ → Policy) : Result (Journal T) := do
  ensure (primary.role = .primary ∧ secondary.role = .secondary ∧
    primary.identity = secondary.identity ∧ primary.prepared = secondary.prepared ∧
    primary.prepared.phase = .applied) "pending completion pair mismatch"
  (node 0).validateRetained E host primary trust
  (node 1).validateRetained E host secondary trust
  let decision ← j.fetch E primary.prepared.request trust (policy 0)
  ensure (decision.acknowledgements = both true) "pending completion acknowledgements incomplete"
  let completion := completionId E decision.request decision.tokenDigest decision.acknowledgements
  j.complete E decision completion trust (policy 1)

end TerrapiVault.Maintenance
