import TerrapiVault.Maintenance.Certified
import TerrapiVault.Recovery.Transitions
import TerrapiVault.Replication.Checkpoint

/-! A node whose ordinary admission a certified maintenance has closed: the two pending
rows and everything that is checked before each step. The application and the tables that
no maintenance call writes enter through `Host`. -/
namespace TerrapiVault.Maintenance

open Replication
open Recovery

inductive Phase where
  | prepared
  | decided
  | applied
  | complete
  | aborting
deriving DecidableEq

/-- The log is already cut to the plan's checkpoint. -/
def Phase.pruned : Phase → Bool
  | .applied | .complete => true
  | _ => false

structure Marker where
  format : ℕ
  identity : Identity
  role : Role
  previousRuntime : ℕ
  requestDigest : Id
  planDigest : Id

/-- The signed abort a node has bound itself to. -/
structure AbortLocal where
  abortId : Id
  abortTokenDigest : Id
  abortedRevision : ℕ
  decided : Bool
deriving DecidableEq

structure Prepared where
  format : ℕ
  phase : Phase
  plan : PairPlan
  request : Request
  token : String
  decision : Option Id
  completion : Option Id
  abort : Option AbortLocal
deriving DecidableEq

/-- Decision, completion and abort are those of the phase. -/
def Prepared.evident (progress : Prepared) (tokenDigest : Id) : Bool :=
  match progress.phase with
  | .prepared => progress.decision = none ∧ progress.completion = none
  | .complete => progress.decision = some tokenDigest ∧ ∃ id ∈ progress.completion, id ≠ zeroId
  | .aborting => progress.completion = none ∧
      progress.decision = progress.abort.bind fun a => if a.decided then some tokenDigest else none
  | _ => progress.decision = some tokenDigest ∧ progress.completion = none

def Prepared.checkEvidence {T : Type → Type} (E : Env T) (progress : Prepared) (trust : Trust) :
    Result Verified := do
  let verified ← E.verifyHistorical progress.token trust progress.request
  ensure (progress.evident verified.tokenDigest = true) "pending phase evidence mismatch"
  pure verified

/-- The documents of the recovery a node came from, read and compared with each other:
`membership` is their digest, `generation` the one they grant the member. -/
structure Active where
  member : Id
  generation : Id
  membership : Id
  checkpoint : Prefix

structure CertifiedAuthority where
  fetchCompleted : Request → Result CompletedTransition
  fetchCompletedRevision : Request → Result HistoricalCompletedTransition

/-- What an archive repeats of a completed request. -/
def CertifiedAuthority.evidence (authority : CertifiedAuthority) (request : Request)
    (historical : Bool) : Result (Id × Id × Id) :=
  if historical then do
    let completed ← authority.fetchCompletedRevision request
    pure (completed.request.id, completed.tokenDigest, completed.completion)
  else do
    let completed ← authority.fetchCompleted request
    pure (completed.committed.request.id, completed.committed.tokenDigest, completed.completion)

/-- `F` holds the tables that are only read here. `verifyFormats` stands for the format rows as
an open node and as a pending one check them, which agree on a sealed node; `ordinary` for what
`admission` checks beside the owner and the certificates, `recovery_admission` among it. -/
structure Host (F C V : Type) where
  schema : Schema C V SchemaId String
  contract : Contract
  initial : String
  verifySchema : F → Tables C V → Result Unit
  verifyFormats : F → Result Unit
  verifyCapacity : F → Tables C V → Result Unit
  verifyAccounting : F → Tables C V → Result Unit
  verifyHistory : F → ℕ → Result Unit
  verifyLegacy : F → Identity → Role → Option Prefix → Segments → ℕ → Result Unit
  active : F → Identity → Role → Result (Option Active)
  verifyPages : F → Manifest → Result Unit
  noLossRecovery : F → Result Unit
  ordinary : F → Tables C V → Segments → Result Unit
  terminated : F → ℕ × Id × Id × Id → Result Unit

/-- The file of a typed node. -/
structure Node (F C V : Type) where
  role : Role
  identity : Identity
  runtime : ℕ
  initial : String
  store : Tables C V
  segments : Segments
  publication : Option Manifest
  pins : ℕ
  marker : Option Marker
  progress : Option Prepared
  files : F

/-- What a validation is checked against, beside the host. -/
structure Binding where
  identity : Identity
  role : Role
  certifiedAuthority : Option CertifiedAuthority

structure PendingInspection where
  role : Role
  identity : Identity
  checkpoint : Prefix
  base : Option Prefix

/-- A role's place in a pair. -/
def side : Role → Fin 2
  | .primary => 0
  | .secondary => 1

/-- `verify_live_certified`: the archived completion is the authority's. -/
def Segments.verifyLiveCertified {T : Type → Type} (E : Env T) (segments : Segments)
    (authority : Option CertifiedAuthority) (historical : Bool) : Result Unit :=
  if segments.version ≠ 3 then ensure (authority.isNone = true) "unexpected certified authority"
  else do
    ensure (∀ archived ∈ segments.completion, archived.1 ≠ 2)
      "certified transition was terminated by a participant loss"
    let authority ← require authority "live certified authority required"
    let certificate ← queried segments.latest
    ensure (E.bytes (E.encode certificate) ≤ maxCertificateBytes) "certificate record limit"
    let evidence ← authority.evidence certificate.request historical
    let archived ← queried segments.completion
    ensure (archived = (1, evidence)) "live certified completion mismatch"

namespace Node

variable {T : Type → Type} (E : Env T) {F C V : Type} (host : Host F C V) (n : Node F C V)

/-- `history_format`. -/
def historyFormat (format : ℕ) : Result ℕ :=
  if format = 1 ∨ format = 2 then do
    ensure (n.segments.version = 0) "orphan maintenance metadata"
    host.verifyLegacy n.files n.identity n.role n.store.base n.segments 0
    pure format
  else if format = 3 ∨ format = 4 then do
    ensure (n.segments.version ≠ 0) "incomplete maintenance metadata"
    ensure (n.segments.version ≤ 3) "unsupported maintenance format"
    if n.segments.version < 3 then
      host.verifyLegacy n.files n.identity n.role n.store.base n.segments n.segments.version
    pure (format - 2)
  else throw (.message "unsupported typed lifecycle format")

def requireUnpinned : Result Unit :=
  ensure (n.segments.version = 0 ∨ n.pins = 0) "snapshot publication is pinned"

def validateManifest (manifest : Manifest) : Result Unit := do
  let _ ← manifest.encode E
  ensure (manifest.checkpoint.identity = n.identity ∧ manifest.contract = host.contract)
    "typed snapshot owner/contract mismatch"

def verifyPublicationIn (manifest : Manifest) : Result Unit := do
  n.validateManifest E host manifest
  let stored ← queried n.publication
  let _ ← stored.encode E
  ensure (stored = manifest) "publication changed"
  host.verifyPages n.files manifest

def checkMarker (binding : Binding) : Result Marker := do
  let marker ← queried n.marker
  ensure (E.bytes (E.encode marker) ≤ 64 * 1024) "pending marker row mismatch"
  ensure (marker.format = 1 ∧ marker.identity = binding.identity ∧ marker.role = binding.role ∧
    (marker.previousRuntime = 3 ∨ marker.previousRuntime = 4)) "pending marker owner mismatch"
  ensure (n.runtime = 5 ∧ n.initial = host.initial) "unsupported pending runtime"
  ensure (n.store.readiness = none) "pending readiness present"
  ensure (n.identity = binding.identity ∧ n.role = binding.role) "pending node owner mismatch"
  pure marker

/-- An aborting row carries its abort and the decision state the abort was issued for. -/
def checkProgress (expected : Request) (exact : Option Prepared) : Result Prepared := do
  let progress ← queried n.progress
  ensure (E.bytes (E.encode progress) ≤ 256 * 1024) "pending progress row mismatch"
  ensure (∀ e ∈ exact, progress = e) "pending maintenance conflict"
  ensure ((progress.format = 1 ∨ progress.format = 2) ∧ progress.request = expected)
    "unsupported pending phase"
  ensure (progress.format ≠ 1 ∨ progress.abort = none ∧ progress.phase ≠ .aborting)
    "unsupported pending phase"
  ensure (progress.phase ≠ .aborting ∨ progress.format = 2 ∧ progress.completion = none ∧
    ∃ a ∈ progress.abort, progress.decision.isSome = a.decided) "pending abort state mismatch"
  pure progress

/-- The recovery history, and for a pruned log the certificates down to its base. -/
def checkLineage (trust : Trust) (marker : Marker) (progress : Prepared) : Result Unit :=
  if progress.phase.pruned then do
    host.verifyHistory n.files (marker.previousRuntime - 2)
    let found ← n.segments.verifyMetadata E n.store.base n.identity n.role 3 (some trust)
    let lineage ← require found "pending certified lineage missing"
    let own := progress.plan.localPlan n.role
    let anchor ← require own.recoveryAnchor "pending recovery anchor missing"
    ensure (lineage.sourceAnchor = anchor ∧ lineage.currentBase = own.checkpoint)
      "pending certified lineage mismatch"
  else do
    let derived ← n.historyFormat host marker.previousRuntime
    host.verifyHistory n.files derived

def checkHistory (trust : Trust) (marker : Marker) (progress : Prepared) : Result Unit := do
  host.verifySchema n.files n.store
  n.checkLineage E host trust marker progress
  host.verifyFormats n.files
  host.verifyCapacity n.files n.store
  host.verifyAccounting n.files n.store

/-- The certificate before the pending one. -/
def previousCertificate (progress : Prepared) : Result (Option CertificateRecord) := do
  let rows := n.segments.certificates.getD []
  let own := progress.plan.localPlan n.role
  let before := if progress.phase.pruned then
    rows.filter fun row => row.1 < own.checkpoint.sequence else rows
  let found := before.getLast?.map Prod.snd
  ensure (∀ c ∈ found, E.bytes (E.encode c) ≤ maxCertificateBytes) "previous certificate limit"
  pure found

def checkPlan (marker : Marker) (progress : Prepared) : Result Prefix := do
  ensure (marker.requestDigest = E.digest progress.request ∧
    marker.planDigest = E.digest progress.plan) "pending marker/progress mismatch"
  ensure (progress.token.utf8ByteSize ≤ Recovery.maxToken) "pending token limit"
  progress.plan.validateCertified E
  let previous ← n.previousCertificate E progress
  validateRecord E ⟨1, progress.plan, progress.request, progress.token⟩ n.identity n.role previous
  let own := progress.plan.localPlan n.role
  ensure (own.checkpoint.identity = n.identity) "pending checkpoint identity mismatch"
  let (checkpoint, _) ← n.store.current host.schema n.identity true
  ensure (checkpoint = own.checkpoint) "pending physical checkpoint mismatch"
  ensure (n.store.base = if progress.phase.pruned then some own.checkpoint else own.head.base)
    "pending base mismatch"
  let stored ← queried n.publication
  let _ ← stored.encode E
  let publication ← require own.publication "pending publication missing"
  ensure (stored = publication) "pending publication mismatch"
  n.verifyPublicationIn E host publication
  pure checkpoint

/-- A node with certificates shows them to the authority until the transition is decided
either way; a node without them still stands on its recovery anchor. -/
def checkAnchor (binding : Binding) (trust : Trust) (phase : Phase) (active : Active) :
    Result Unit :=
  if n.segments.certificates.isSome then
    if phase = .prepared ∨ phase = .decided then do
      n.segments.verifyCertified E n.store.base n.identity n.role (some trust)
        (host.terminated n.files)
      n.segments.verifyLiveCertified E binding.certifiedAuthority true
    else pure ()
  else do
    let anchored ← n.store.calculate host.schema n.identity true (some active.checkpoint.sequence)
    ensure (anchored = active.checkpoint) "pending recovery anchor mismatch"
    ensure (n.role ≠ .primary ∨ n.store.base = some active.checkpoint)
      "pending candidate anchor base mismatch"
    ensure (phase.pruned = false) "pending certified segment mismatch"

def checkRecovery (binding : Binding) (trust : Trust) (progress : Prepared) : Result Unit := do
  let own := progress.plan.localPlan n.role
  let found ← host.active n.files n.identity n.role
  let active ← queried found
  ensure (active.generation = n.store.generation) "pending active recovery mismatch"
  n.checkAnchor E host binding trust progress.phase active
  let participant := progress.request.participants (side n.role)
  ensure (participant.member = active.member ∧ participant.generation = n.store.generation)
    "pending live member/generation mismatch"
  ensure (progress.request.membership = active.membership ∧
    some progress.request.membership = own.membership) "pending membership mismatch"

def validatePending (binding : Binding) (expected : Request) (trust : Trust)
    (exact : Option Prepared) : Result (PendingInspection × Prepared) := do
  let marker ← n.checkMarker E host binding
  let progress ← n.checkProgress E expected exact
  n.checkHistory E host trust marker progress
  let checkpoint ← n.checkPlan E host marker progress
  let _ ← progress.checkEvidence E trust
  n.checkRecovery E host binding trust progress
  pure (⟨binding.role, binding.identity, checkpoint, n.store.base⟩, progress)

end Node

end TerrapiVault.Maintenance
