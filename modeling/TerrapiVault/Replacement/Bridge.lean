import TerrapiVault.Replacement.Cycles
import TerrapiVault.Maintenance.Lifecycle

/-! The calls of a typed node in a primary replacement. Each one that writes is a single
transaction: it returns the node as committed, or fails and leaves it as it was. -/
namespace TerrapiVault.Replacement

open Replication (Result ensure Role)
open Recovery (Id zeroId require Trust)
open Maintenance

/-- The role a member has in the recovered pair. -/
def recoveredRole (i : Fin 2) : Role := if i = 0 then .primary else .secondary

namespace Node

variable {T : Type → Type} (E : BridgeEnv T) {X C V : Type} (host : Host X C V)
  (trust : Option Trust) (n : Node X C V)

def saveSeal (plan : Plan) : Result (Node X C V) := do
  authorizes plan.baseline plan
  match ← n.readSeal E with
  | some old => do
    ensure (old = plan) "recovery plan conflict"
    pure n
  | none => do
    ensure (E.bytes (E.encode plan) ≤ maxSeal) "seal too large"
    ensure (n.checkpointVersion = 1) "recovery marker conflict"
    pure { n with sealed := some plan, checkpointVersion := 2 }

/-- `inspect_in`. -/
def inspect (plan : Plan) (member : Id) : Result Prepared := do
  n.verifyOwner E host trust
  authorizes plan.baseline plan
  ensure (E.identityText n.identity = plan.baseline.scope ∧
    (member = plan.candidate ∨ member = plan.baseline.survivor)) "recovery scope/member mismatch"
  ensure (n.restoring = false) "snapshot incomplete"
  let (checkpoint, _) ← n.store.current host.schema n.identity true
  ensure (E.digest checkpoint = plan.baseline.checkpoint ∧ (member ≠ plan.baseline.survivor ∨
    n.store.generation = plan.baseline.survivorGeneration))
    "recovery checkpoint/generation mismatch"
  let sealed ← n.readSeal E
  ensure (∀ old ∈ sealed, old = plan) "another plan sealed"
  pure ⟨member, n.store.generation, E.digest checkpoint⟩

/-- `delivery`. -/
def deliveryOf (decision : CommittedDecision) (member : Prepared) : Delivery :=
  ⟨1, decision.request, decision.tokenDigest, decision.grantId, member⟩

def saveDelivery (receipt : Delivery) : Result (Node X C V) :=
  match n.delivery with
  | some old => do
    ensure (old = receipt) "delivery conflict"
    pure n
  | none => pure { n with delivery := some receipt }

def recordRecoveryDecision (decision : CommittedDecision) (member : Id) : Result (Node X C V) := do
  n.requireNoLossRecovery host
  let actual ← n.inspect E host trust decision.request.plan member
  ensure (∃ i, decision.request.prepared i = actual) "stale installation"
  let sealed ← n.saveSeal E decision.request.plan
  sealed.saveDelivery (deliveryOf decision actual)

def verifyRecoveryDecision (decision : CommittedDecision) (member : Prepared) : Result Unit := do
  let actual ← n.inspect E host trust decision.request.plan member.member
  ensure (actual = member ∧ ∃ i, decision.request.prepared i = member) "installation changed"
  let delivered ← queried n.delivery
  ensure (delivered = deliveryOf decision member) "delivery mismatch"

/-- The member an active record names, as its place in the pair. -/
def activeIndex (a : Active) : Result (Fin 2) :=
  if a.member = a.request.plan.candidate then pure 0
  else if a.member = a.request.plan.baseline.survivor then pure 1
  else throw (.message "active member mismatch")

/-- The anchor of a node without certificates is recomputed, that of a certified one is
read from its lineage. -/
def checkAnchor (a : Active) (index : Fin 2) : Result Unit :=
  if n.segments.certificates.isNone then do
    let anchor ← n.store.calculate host.schema n.identity true (some a.checkpoint.sequence)
    ensure (anchor = a.checkpoint) "active recovery anchor mismatch"
    ensure (index ≠ 0 ∨ n.store.base = some a.checkpoint) "candidate base mismatch"
  else do
    let found ← n.segments.verifyMetadata E.toEnv n.store.base n.identity n.role 3 trust
    let lineage ← require found "active certified lineage missing"
    ensure (lineage.sourceAnchor = a.checkpoint ∧ some lineage.currentBase = n.store.base)
      "active certified lineage mismatch"

def validateActiveAs (role : Role) (a : Active) : Result Unit := do
  n.verifyOwnerAs E host trust role
  let plan := a.request.plan
  a.request.validate plan.baseline
  let index ← activeIndex a
  ensure (a.format = 1 ∧ a.tokenDigest ≠ zeroId ∧ a.grantId ≠ zeroId)
    "active membership/data mismatch"
  let sealed ← n.readSeal E
  ensure (sealed = some plan ∧ E.identityText n.identity = plan.baseline.scope ∧
    role = recoveredRole index ∧ (a.request.prepared index).member = a.member ∧
    (a.request.prepared index).generation = n.store.generation ∧
    a.checkpoint.identity = n.identity ∧ E.digest a.checkpoint = plan.baseline.checkpoint)
    "active membership/data mismatch"
  n.checkAnchor E host trust a index
  let delivered ← queried n.delivery
  ensure (delivered = a.delivered (a.request.prepared index)) "active delivery mismatch"

def validateActive (a : Active) : Result Unit := n.validateActiveAs E host trust n.role a

def verifyRecoveryActive (decision : CommittedDecision) (member : Prepared) : Result Unit := do
  n.verifyRecoveryDecision E host trust decision member
  let a ← require (← n.readActive E) "member not active"
  n.validateActive E host trust a
  ensure (a.request = decision.request ∧ a.member = member.member ∧
    a.tokenDigest = decision.tokenDigest ∧ a.grantId = decision.grantId) "active decision mismatch"

def recoveryAdmission : Result Unit := do
  let sealed ← n.readSeal E
  let active ← n.readActive E
  match sealed, active with
  | none, none =>
    ensure (n.completion = none ∧ n.delivery = none) "orphan recovery metadata"
  | some _, some a => do
    n.validateActive E host trust a
    let receipt ← queried n.completion
    ensure (receipt.Completes a) "completion receipt mismatch"
  | _, _ => throw (.message "recovery not complete; data admission closed")

def recoveryMembership : Result (Option Id) := do
  match ← host.loss trust n.rest with
  | some membership => do
    n.recoveryAdmission E host trust
    host.lossAdmission n.rest
    pure (some membership)
  | none => do
    n.recoveryAdmission E host trust
    let active ← n.readActive E
    pure (active.map (Active.membership E))

/-- The record an activation writes. -/
def activeOf (decision : CommittedDecision) (checkpoint : Prefix) (member : Id) : Active :=
  ⟨1, decision.request, decision.tokenDigest, decision.grantId, checkpoint, member⟩

/-- The receipt a completion writes. -/
def completionOf (a : Active) (request : Request) (id : Id) : Completion :=
  ⟨1, request, a.tokenDigest, a.grantId, id⟩

/-- The row is written once; the owner row takes the recovered role with it. -/
def saveActive (record : Active) (index : Fin 2) : Result (Node X C V) :=
  match n.active with
  | some old => do
    ensure (old = record) "activation conflict"
    pure n
  | none => do
    ensure (n.role = .secondary) "activation requires restricted role"
    pure { n with active := some record, role := recoveredRole index }

def saveCompletion (receipt : Completion) : Result (Node X C V) :=
  match n.completion with
  | some old => do
    ensure (old = receipt) "completion conflict"
    pure n
  | none => pure { n with completion := some receipt }

def activateMember (decision : CommittedDecision) (index : Fin 2) : Result (Node X C V) := do
  let member := decision.request.prepared index
  n.verifyRecoveryDecision E host trust decision member
  n.requireNoLossRecovery host
  let actual ← n.inspect E host trust decision.request.plan member.member
  ensure (actual = member) "installation changed"
  let (checkpoint, _) ← n.store.current host.schema n.identity true
  ensure (index ≠ 0 ∨ n.store.base = some checkpoint) "candidate requires snapshot base"
  let record := activeOf decision checkpoint member.member
  ensure (E.bytes (E.encode record) ≤ maxActive) "active record too large"
  let next ← n.saveActive record index
  next.validateActiveAs E host trust (recoveredRole index) record
  pure next

def completeMember (request : Request) (completion : Id) : Result (Node X C V) := do
  n.requireNoLossRecovery host
  let a ← require (← n.readActive E) "inactive member"
  n.validateActive E host trust a
  ensure (a.request = request) "completion request mismatch"
  let receipt := completionOf a request completion
  let next ← n.saveCompletion receipt
  next.recoveryAdmission E host trust
  pure next

/-- The parent of the next retired row; no retired member or recovery returns. -/
def retiredParent (plan : Plan) : Result (Option Id) :=
  if n.cycles.isSome then do
    let parent ← n.visitHistory E fun r =>
      ensure (plan.candidate ∉ [r.active.request.plan.baseline.oldPrimary,
        r.active.request.plan.candidate] ∧ r.active.request.plan.recoveryId ≠ plan.recoveryId)
        "retired incarnation or recovery ID reused"
    pure (some parent)
  else pure none

/-- `advance_cycle`: the completed recovery moves to the history and the next plan is
sealed in its place. -/
def advanceCycle (a : Active) (plan : Plan) : Result (Node X C V) := do
  n.recoveryAdmission E host trust
  successor E a plan
  let parent ← n.retiredParent E plan
  let delivery ← queried n.delivery
  let completion ← queried n.completion
  let record : Retired := ⟨parent, a, delivery, completion, plan⟩
  ensure (E.bytes (E.encode record) ≤ maxRetired) "recovery history record too large"
  ensure (E.bytes (E.encode plan) ≤ maxSeal) "seal too large"
  let rows ← insertSequence (n.cycles.getD []) (a.request.plan.revision, record, E.digest record)
  ensure (n.sealed.isSome = true) "missing recovery seal"
  let next := { n with
    cycles := some rows
    active := none
    delivery := none
    completion := none
    runtime := if n.runtime = 3 ∨ n.runtime = 4 then 4 else 2
    sealed := some plan }
  let _ ← next.inspect E host trust plan plan.baseline.survivor
  pure next

/-- `verified_view_in`, as far as the seal asks for it. -/
def requireVerified : Result Unit := do
  let expected ← require n.store.readiness "survivor is not verified"
  let (actual, _) ← n.store.current host.schema n.identity false
  ensure (actual = expected) "read-admission checkpoint mismatch"

/-- A survivor that is active in an earlier recovery retires it. -/
def retireActive (plan : Plan) : Result (Node X C V) := do
  match ← n.readActive E with
  | some a => n.advanceCycle E host trust a plan
  | none => pure n

def sealRecoverySource (plan : Plan) : Result (Node X C V) := do
  ensure (n.role = .secondary) "survivor must be secondary"
  n.requireNoLossRecovery host
  n.requireVerified host
  let ready ← n.retireActive E host trust plan
  let _ ← ready.inspect E host trust plan plan.baseline.survivor
  ready.saveSeal E plan

end Node

end TerrapiVault.Replacement
