import TerrapiVault.Maintenance.Lifecycle

/-! The way back: a signed abort binds both nodes first, then the journal records it
while both are bound, then each node is restored. -/
namespace TerrapiVault.Maintenance

open Replication (Result ensure)
open Recovery

/-- The request fields an abort document repeats. -/
abbrev BindsAbort {T : Type → Type} (E : Env T) (abort : MaintenanceAbort) (request : Request) :
    Prop :=
  abort.abortedRequest = E.digest request ∧ abort.abortedRequestId = request.id ∧
    abort.abortedRevision = request.revision ∧ abort.authorityId = request.authorityId ∧
    abort.install = request.install ∧ abort.region = request.region ∧
    abort.scope = request.scope ∧ abort.schema = request.schema ∧
    abort.membership = request.membership ∧ abort.sourceAnchor = request.sourceAnchor

/-- What a node keeps of an abort. -/
def abortLocal {T : Type → Type} (E : Env T) (abort : MaintenanceAbort) (token : String) :
    AbortLocal :=
  ⟨abort.id, E.tokenDigest token, abort.abortedRevision, abort.decided⟩

variable {T : Type → Type} (E : Env T) {F C V : Type} (host : Host F C V)

namespace Node

variable (n : Node F C V) (h : Handle) (j : Journal T) (trust : Trust) (policy : ℕ → Policy)

/-- `begin_abort_at`; neither the journal nor the peer is asked. -/
def beginAbort (abort : MaintenanceAbort) (token : String) (now : ℕ) :
    Result (Node F C V × Handle) := do
  let _ ← E.verifyAbortIssuance token trust abort now
  ensure (BindsAbort E abort h.prepared.request) "pending abort binding mismatch"
  let bound := abortLocal E abort token
  if h.prepared.phase = .aborting then do
    ensure (h.prepared.abort = some bound) "pending abort conflict"
    pure (n, h)
  else do
    ensure ((h.prepared.phase = .prepared ∨ h.prepared.phase = .decided) ∧
      (abort.decided = true ↔ h.prepared.phase = .decided) ∧ h.prepared.completion = none)
      "invalid pending abort transition"
    let next := { h.prepared with format := 2, phase := .aborting, abort := some bound }
    n.replaceProgress E host h trust next (pure ())

/-- One node's part of `AbortingPolicy::abort_applicable`. -/
def isAborting (abort : MaintenanceAbort) : Result Unit := do
  let progress ← n.liveProgress E host h trust
  let bound ← require progress.abort "pending node is not aborting"
  ensure (progress.phase = .aborting ∧ progress.format = 2 ∧
    E.digest progress.request = abort.abortedRequest ∧
    progress.request.id = abort.abortedRequestId ∧
    progress.request.revision = abort.abortedRevision ∧ bound.abortId = abort.id ∧
    bound.decided = abort.decided ∧ bound.abortedRevision = abort.abortedRevision)
    "pending node is not aborting"

/-- The owner checks of an ordinary open. -/
def verifyRestored : Result Unit := do
  ensure (n.identity = h.identity ∧ n.role = h.role) "pending abort owner mismatch"
  ensure (n.initial = host.initial) "pending abort runtime mismatch"
  let derived ← n.historyFormat host n.runtime
  host.verifyHistory n.files derived
  n.segments.verifyCertified E n.store.base n.identity n.role (some trust)
    (host.terminated n.files)
  host.verifyCapacity n.files n.store
  host.verifyAccounting n.files n.store
  host.verifySchema n.files n.store

def finishAbort : Result (Node F C V × Handle) :=
  if h.finalized then do
    let _ ← j.fetchAbort E h.prepared.request trust (policy 0)
    pure (n, h)
  else do
    let bound ← require h.prepared.abort "pending node is not aborting"
    ensure (h.prepared.phase = .aborting) "pending node is not aborting"
    n.validateRetained E host h trust
    let committed ← j.fetchAbort E h.prepared.request trust (policy 0)
    ensure (committed.abort.id = bound.abortId ∧
      committed.tokenDigest = bound.abortTokenDigest ∧
      committed.abort.abortedRevision = bound.abortedRevision ∧
      committed.abort.decided = bound.decided ∧
      committed.abort.abortedRequest = E.digest h.prepared.request) "pending abort proof mismatch"
    let marker ← queried n.marker
    let restored := { n with runtime := marker.previousRuntime, marker := none, progress := none }
    ensure (restored.runtime = 3 ∨ restored.runtime = 4) "pending abort post-state mismatch"
    restored.verifyRestored E host h trust
    pure (restored, { h with finalized := true })

end Node

/-- `AbortingPolicy`: both nodes are read inside the journal's transaction. -/
def abortingPolicy (external : Policy) (node : Fin 2 → Node F C V) (primary secondary : Handle)
    (trust : Trust) : Policy where
  continuity := external.continuity
  prepared := external.prepared
  applied := external.applied
  historicalCompletion := external.historicalCompletion
  abortApplicable scope abort := do
    external.abortApplicable scope abort
    (node 0).isAborting E host primary trust abort
    (node 1).isAborting E host secondary trust abort

/-- `abort_authority_at`. -/
def abortAuthority (node : Fin 2 → Node F C V) (primary secondary : Handle) (j : Journal T)
    (abort : MaintenanceAbort) (token : String) (now : ℕ) (trust : Trust) (policy : ℕ → Policy) :
    Result (Journal T × CommittedMaintenanceAbort) := do
  ensure (primary.role = .primary ∧ secondary.role = .secondary ∧
    primary.identity = secondary.identity ∧
    primary.prepared.request = secondary.prepared.request) "pending abort pair mismatch"
  j.abort E abort token now trust (abortingPolicy E host (policy 0) node primary secondary trust)

/-- One journal, the files of both nodes and the handles open on them. -/
structure Site (T : Type → Type) (F C V : Type) where
  journal : Journal T
  node : Fin 2 → Node F C V
  handle : Fin 2 → Option Handle

inductive Call where
  | preparePair (opened : Fin 2 → Opened) (plan : PairPlan) (request : Request) (token : String)
      (now writes : ℕ)
  | openExisting (i : Fin 2) (identity : Identity) (expected : Request)
      (authority : Option CertifiedAuthority)
  | decidePrepared (now : ℕ) (policy : ℕ → Policy)
  | recordDecided (i : Fin 2) (policy : ℕ → Policy)
  | applyDecided (i : Fin 2) (policy : ℕ → Policy) (random : Replication.Bytes32)
  | acknowledgeApplied (i : Fin 2) (policy : ℕ → Policy)
  | completeAuthority (policy : ℕ → Policy)
  | recordComplete (i : Fin 2) (policy : ℕ → Policy)
  | finalizeNode (i : Fin 2) (policy : ℕ → Policy)
  | beginAbort (i : Fin 2) (abort : MaintenanceAbort) (token : String) (now : ℕ)
  | abortAuthority (abort : MaintenanceAbort) (token : String) (now : ℕ) (policy : ℕ → Policy)
  | finishAbort (i : Fin 2) (policy : ℕ → Policy)

namespace Site

variable (s : Site T F C V)

def opened (i : Fin 2) : Result Handle := require (s.handle i) "no open handle"

/-- Put back what a call on node `i` returned. -/
def put (i : Fin 2) (after : Node F C V × Handle) : Site T F C V :=
  { s with
    node := Function.update s.node i after.1
    handle := Function.update s.handle i (some after.2) }

end Site

/-- A node lock has one owner: `prepare_pair` and an open need it free. -/
def Call.run (trust : Trust) (s : Site T F C V) : Call → Result (Site T F C V)
  | .preparePair opened plan request token now writes => do
    ensure (∀ i, (s.handle i).isNone) "node lock"
    let node ← Maintenance.preparePair E host s.node opened plan request token now trust writes
    pure { s with node := node }
  | .openExisting i identity expected authority => do
    ensure ((s.handle i).isNone = true) "node lock"
    let h ← (s.node i).openExisting E host identity expected trust authority
    pure { s with handle := Function.update s.handle i (some h) }
  | .decidePrepared now policy => do
    let (j, _) ← Maintenance.decidePrepared E (← s.opened 0) (← s.opened 1) s.journal now trust policy
    pure { s with journal := j }
  | .recordDecided i policy => do
    let after ← (s.node i).recordDecided E host (← s.opened i) s.journal trust policy
    pure (s.put i after)
  | .applyDecided i policy random => do
    let after ← (s.node i).applyDecided E host (← s.opened i) s.journal trust policy random
    pure (s.put i after)
  | .acknowledgeApplied i policy => do
    let j ← (s.node i).acknowledgeApplied E host (← s.opened i) s.journal trust policy
    pure { s with journal := j }
  | .completeAuthority policy => do
    let j ← Maintenance.completeAuthority E host s.node (← s.opened 0) (← s.opened 1) s.journal
      trust policy
    pure { s with journal := j }
  | .recordComplete i policy => do
    let after ← (s.node i).recordComplete E host (← s.opened i) s.journal trust policy
    pure (s.put i after)
  | .finalizeNode i policy => do
    let after ← (s.node i).finalizeNode E host (← s.opened i) s.journal trust policy
    pure (s.put i after)
  | .beginAbort i abort token now => do
    let after ← (s.node i).beginAbort E host (← s.opened i) trust abort token now
    pure (s.put i after)
  | .abortAuthority abort token now policy => do
    let (j, _) ← Maintenance.abortAuthority E host s.node (← s.opened 0) (← s.opened 1) s.journal
      abort token now trust policy
    pure { s with journal := j }
  | .finishAbort i policy => do
    let after ← (s.node i).finishAbort E host (← s.opened i) s.journal trust policy
    pure (s.put i after)

end TerrapiVault.Maintenance
