import TerrapiVault.Replacement.Decision
import TerrapiVault.Maintenance.Certified
import TerrapiVault.Replication.Checkpoint

/-! A typed node with its recovery tables, and the chain of retired recoveries a survivor
keeps. JSON columns hold the value they encode; their length is that of its encoding. -/
namespace TerrapiVault.Replacement

open Replication
open Recovery (Id zeroId require Trust)
open Maintenance

/-- `typed::recovery::Active`. -/
structure Active where
  format : ℕ
  request : Request
  tokenDigest : Id
  grantId : Id
  checkpoint : Prefix
  member : Id
deriving DecidableEq

/-- The receipt of `record_recovery_decision`. -/
structure Delivery where
  version : ℕ
  request : Request
  tokenDigest : Id
  grantId : Id
  member : Prepared
deriving DecidableEq

/-- The receipt of `complete_member`. -/
structure Completion where
  version : ℕ
  request : Request
  tokenDigest : Id
  grantId : Id
  completion : Id
deriving DecidableEq

structure Retired where
  parent : Option Id
  active : Active
  delivery : Delivery
  completion : Completion
  next : Plan
deriving DecidableEq

/-- The environment of the decision journal and the text of an identity. -/
structure BridgeEnv (T : Type → Type) extends GrantEnv T where
  identityText : Identity → String
  identityOf : String → Option Identity

/-- `X` holds the tables no recovery call writes. `loss` is the successor membership of an
installed participant-loss recovery, `lossAdmission` the admission that goes with it. -/
structure Host (X C V : Type) where
  schema : Schema C V SchemaId String
  initial : String
  verifyLegacy : X → Segments → ℕ → Result Unit
  terminated : X → ℕ × Id × Id × Id → Result Unit
  verifyCapacity : X → Tables C V → Result Unit
  verifyContract : X → Tables C V → Result Unit
  loss : Option Trust → X → Result (Option Id)
  lossAdmission : X → Result Unit

/-- `none` is a table that does not exist. -/
structure Node (X C V : Type) where
  identity : Identity
  role : Role
  runtime : ℕ
  initial : String
  store : Tables C V
  segments : Segments
  restoring : Bool
  checkpointVersion : ℕ
  sealed : Option Plan
  delivery : Option Delivery
  active : Option Active
  completion : Option Completion
  cycles : Option (List (ℕ × Retired × Id))
  rest : X
deriving DecidableEq

def maxSeal : ℕ := 32768

def maxActive : ℕ := 65536

def maxRetired : ℕ := 256 * 1024

/-- What `summary().membership` reports of a recovered node. -/
def Active.membership {T : Type → Type} (E : BridgeEnv T) (a : Active) : Id :=
  E.digest (a.request, a.tokenDigest, a.grantId, a.checkpoint)

/-- The receipt that delivered the decision of an active record. -/
def Active.delivered (a : Active) (member : Prepared) : Delivery :=
  ⟨1, a.request, a.tokenDigest, a.grantId, member⟩

/-- The receipt completes the active record. -/
abbrev Completion.Completes (receipt : Completion) (a : Active) : Prop :=
  receipt.version = 1 ∧ receipt.request = a.request ∧ receipt.tokenDigest = a.tokenDigest ∧
    receipt.grantId = a.grantId ∧ receipt.completion ≠ zeroId

section Chain

variable {T : Type → Type} (E : BridgeEnv T)

def successor (a : Active) (next : Plan) : Result Unit := do
  authorizes next.baseline next
  ensure (a.member = a.request.plan.baseline.survivor ∧
    next.baseline.scope = a.request.plan.baseline.scope ∧
    next.baseline.revision = a.request.plan.revision ∧
    next.baseline.digest = a.membership E ∧
    next.baseline.oldPrimary = a.request.plan.candidate ∧
    next.baseline.survivor = a.member ∧
    next.candidate ≠ a.request.plan.baseline.oldPrimary ∧
    next.recoveryId ≠ a.request.plan.recoveryId)
    "recovery cycle does not extend completed membership"

/-- How far the loop of `visit_history` has come. -/
structure CycleWalk where
  parent : Option Id
  next : Option Plan

def Retired.checkEvidence (r : Retired) : Result Unit := do
  let a := r.active
  ensure (a.format = 1 ∧ a.tokenDigest ≠ zeroId ∧ a.grantId ≠ zeroId)
    "invalid retired recovery evidence"
  -- the scope is parsed only once the comparisons before it hold
  let identity ← require (E.identityOf a.request.plan.baseline.scope) "invalid JSON"
  ensure (a.checkpoint.identity = identity ∧
    E.digest a.checkpoint = a.request.plan.baseline.checkpoint ∧
    (a.request.prepared 1).member = a.member ∧ r.delivery = a.delivered (a.request.prepared 1))
    "invalid retired recovery evidence"
  ensure (r.completion.Completes a) "invalid retired completion"

def CycleWalk.visit (visit : Retired → Result Unit) (w : CycleWalk) (row : ℕ × Retired × Id) :
    Result CycleWalk := do
  let r := row.2.1
  ensure (E.bytes (E.encode r) ≤ maxRetired) "recovery history record too large"
  ensure (row.2.2 = E.digest r ∧ r.parent = w.parent ∧ row.1 = r.active.request.plan.revision ∧
    ∀ p ∈ w.next, p = r.active.request.plan) "recovery history chain mismatch"
  r.active.request.validate r.active.request.plan.baseline
  successor E r.active r.next
  r.checkEvidence E
  visit r
  pure ⟨some row.2.2, some r.next⟩

end Chain

namespace Node

variable {T : Type → Type} (E : BridgeEnv T) {X C V : Type} (host : Host X C V) (n : Node X C V)

/-- `seal`. -/
def readSeal : Result (Option Plan) :=
  match n.sealed with
  | none => pure none
  | some plan => do
    ensure (E.bytes (E.encode plan) ≤ maxSeal) "seal too large"
    pure (some plan)

/-- `active`. -/
def readActive : Result (Option Active) :=
  match n.active with
  | none => pure none
  | some a => do
    ensure (E.bytes (E.encode a) ≤ maxActive) "active record too large"
    pure (some a)

/-- Rows stand in revision order. -/
def visitHistory (visit : Retired → Result Unit) : Result Id := do
  let rows ← queried n.cycles
  let walk ← rows.foldlM (CycleWalk.visit E visit) ⟨none, none⟩
  let sealed ← n.readSeal E
  ensure (walk.next.isSome ∧ walk.next = sealed) "recovery history head mismatch"
  require walk.parent "empty recovery history"

def verifyHistory (format : ℕ) : Result Unit :=
  if format = 1 then ensure (n.cycles = none) "orphan recovery history"
  else if format = 2 then do
    let _ ← n.visitHistory E fun _ => pure ()
    pure ()
  else throw (.message "unsupported typed lifecycle format")

/-- `maintenance::history_format`. -/
def historyFormat : Result ℕ :=
  if n.runtime = 1 ∨ n.runtime = 2 then do
    ensure (n.segments.version = 0) "orphan maintenance metadata"
    host.verifyLegacy n.rest n.segments 0
    pure n.runtime
  else if n.runtime = 3 ∨ n.runtime = 4 then do
    ensure (n.segments.version ≠ 0) "incomplete maintenance metadata"
    ensure (n.segments.version ≤ 3) "unsupported maintenance format"
    if n.segments.version < 3 then host.verifyLegacy n.rest n.segments n.segments.version
    pure (n.runtime - 2)
  else throw (.message "unsupported typed lifecycle format")

/-- `verify_owner_as` for the role of the owner row. -/
def verifyOwner (trust : Option Trust) : Result Unit := do
  ensure (n.initial = host.initial) "typed node runtime mismatch"
  let format ← n.historyFormat host
  n.verifyHistory E format
  n.segments.verifyCertified E.toEnv n.store.base n.identity n.role trust (host.terminated n.rest)
  host.verifyCapacity n.rest n.store
  ensure (n.checkpointVersion = if n.sealed.isSome then 2 else 1)
    "typed node metadata format mismatch"
  host.verifyContract n.rest n.store

def verifyOwnerAs (trust : Option Trust) (role : Role) : Result Unit := do
  ensure (n.role = role) "typed node owner mismatch"
  n.verifyOwner E host trust

/-- `maintenance::loss::require_no_loss_recovery`. -/
def requireNoLossRecovery : Result Unit := do
  let installed ← host.loss none n.rest
  ensure (installed = none) "closed after participant-loss recovery in this release"

end Node

end TerrapiVault.Replacement
