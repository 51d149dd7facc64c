import TerrapiVault.Maintenance.Plan
import TerrapiVault.Recovery.Journal

/-! Compaction certificates of a node. A certificate is the plan a node applied with
the signed request for it; each one continues the certificate before it. -/
namespace TerrapiVault.Maintenance

open Replication (Result ensure Role)
open Recovery

structure CertificateRecord where
  format : ℕ
  plan : PairPlan
  request : Request
  token : String
deriving DecidableEq

/-- What `verify_metadata` learns from the stored certificates. -/
structure VerifiedLineage where
  sourceAnchor : Prefix
  currentBase : Prefix
  firstRevision : ℕ
  lastRevision : ℕ
  certificates : ℕ

/-- The tables of a compaction; `none` is a table that does not exist and version 0
the absent format row. Rows stand in sequence order. -/
structure Segments where
  version : ℕ
  root : Option (Option Prefix)
  history : Option (List (ℕ × PairPlan))
  certificates : Option (List (ℕ × CertificateRecord))
  completion : Option (ℕ × Id × Id × Id)
deriving DecidableEq

/-- A query on a table or a row that has to exist. -/
def queried {α : Type} (value : Option α) : Result α :=
  match value with
  | some a => pure a
  | none => throw .sqlite

@[simp] theorem queried_eq_ok {α : Type} {value : Option α} {a : α} :
    queried value = .ok a ↔ value = some a := by
  cases value <;> simp [queried]

def maxCertificateRows : ℕ := 4096

def maxCertificateBytes : ℕ := 256 * 1024

/-- The lineage rule for a certificate that is not the first. -/
def followsCertificate (old q : Request) : Result Unit := do
  ensure (q.authorityId = old.authorityId) "certificate lineage mismatch"
  let next ← checkedSucc old.revision "certificate revision overflow"
  ensure (q.revision = next ∧ q.install = old.install ∧ q.region = old.region ∧
    q.scope = old.scope ∧ q.schema = old.schema ∧ q.membership = old.membership ∧
    q.sourceAnchor = old.sourceAnchor ∧
    ∀ i, (q.participants i).member = (old.participants i).member ∧
      (q.participants i).generation = (old.participants i).generation ∧
      (q.participants i).oldBase = some (old.participants i).target)
    "certificate lineage mismatch"

variable {T : Type → Type} (E : Env T)

def checkpointOf (value : Prefix) : Recovery.Checkpoint := ⟨value.sequence, E.digest value⟩

def publicationOf (value : Option Manifest) : Result Id := do
  let manifest ← require value "missing publication"
  let _ ← manifest.encode E
  pure (E.digest manifest)

/-- The part of `validate_record` that looks at one certificate. -/
def bindsPlan (record : CertificateRecord) (identity : Identity) (role : Role) :
    Result Unit := do
  ensure (record.format = 1) "unsupported certificate record format"
  record.plan.validateStructural E
  let q := record.request
  q.validate
  let own := record.plan.localPlan role
  let anchor ← require own.recoveryAnchor "certificate requires recovery anchor"
  let membership ← require own.membership "certificate requires recovery membership"
  let expectedTarget := checkpointOf E own.checkpoint
  let expectedPlan := E.digest record.plan
  let primary ← publicationOf E record.plan.primary.publication
  let secondary ← publicationOf E record.plan.secondary.publication
  ensure (anchor.identity = identity ∧ own.checkpoint.identity = identity ∧
    q.scope = E.digest identity ∧ q.schema = E.digest own.contract ∧
    q.membership = membership ∧ q.sourceAnchor = checkpointOf E anchor ∧
    (q.participants 0).target = expectedTarget ∧ (q.participants 1).target = expectedTarget ∧
    (q.participants 0).plan = expectedPlan ∧ (q.participants 1).plan = expectedPlan ∧
    (q.participants 0).publication = primary ∧ (q.participants 1).publication = secondary ∧
    (q.participants 0).oldBase = record.plan.primary.head.base.map (checkpointOf E) ∧
    (q.participants 1).oldBase = record.plan.secondary.head.base.map (checkpointOf E))
    "certificate plan binding mismatch"

def validateRecord (record : CertificateRecord) (identity : Identity) (role : Role)
    (previous : Option CertificateRecord) : Result Unit := do
  bindsPlan E record identity role
  match previous with
  | none => pure ()
  | some old => followsCertificate old.request record.request

/-- How far the loop of `verify_metadata` has come. -/
structure LineageWalk where
  preceding : Option Prefix
  previous : Option CertificateRecord
  firstRevision : ℕ
  seen : List Id
  verified : ℕ

/-- One row of the history with the certificate of its sequence. -/
def LineageWalk.visit (trust : Trust) (identity : Identity) (role : Role)
    (certificates : List (ℕ × CertificateRecord)) (w : LineageWalk) (row : ℕ × PairPlan) :
    Result LineageWalk := do
  let plan := row.2
  ensure (E.bytes (E.encode plan) ≤ 128 * 1024) "compaction history too large"
  plan.validateStructural E
  let own := plan.localPlan role
  ensure (row.1 = own.checkpoint.sequence ∧ own.checkpoint.identity = identity ∧
    own.head.base = w.preceding) "compaction history chain mismatch"
  let certificate := (certificates.find? fun c => c.1 = row.1).map Prod.snd
  if own.membership = none then do
    ensure (certificate = none) "certificate on original compaction"
    pure { w with preceding := some own.checkpoint }
  else do
    let record ← require certificate "certificate history gap"
    ensure (E.bytes (E.encode record) ≤ maxCertificateBytes) "certificate record limit"
    ensure (record.plan = plan) "certificate compaction history mismatch"
    validateRecord E record identity role w.previous
    ensure (row.1 = (record.plan.localPlan role).checkpoint.sequence)
      "certificate sequence mismatch"
    let _ ← E.verifyHistorical record.token trust record.request
    ensure (record.request.id ∉ w.seen) "duplicate certificate request id"
    pure {
      preceding := some own.checkpoint
      previous := some record
      firstRevision := if w.previous = none then record.request.revision else w.firstRevision
      seen := record.request.id :: w.seen
      verified := w.verified + 1 }

namespace Segments

variable (segments : Segments)

/-- The certificate with the highest sequence. -/
def latest : Option CertificateRecord :=
  (segments.certificates.getD []).getLast?.map Prod.snd

def verifyMetadata (base : Option Prefix) (identity : Identity) (role : Role)
    (maintenanceFormat : ℕ) (trust : Option Trust) : Result (Option VerifiedLineage) :=
  if maintenanceFormat ≠ 3 then do
    ensure (segments.certificates = none) "orphan certificate metadata"
    pure none
  else do
    let certificates ← require segments.certificates "certified history missing"
    let trust ← require trust "transition trust required"
    let base ← require base "certified base missing"
    ensure (0 < certificates.length ∧ certificates.length ≤ maxCertificateRows)
      "certificate history row limit"
    let history ← queried segments.history
    ensure (history.length ≤ maxCertificateRows ∧
      ∀ row ∈ history, E.bytes (E.encode row.2) ≤ 128 * 1024) "compaction history row limit"
    let root ← queried segments.root
    ensure (E.bytes (E.encode root) ≤ 256 * 1024) "compaction root limit"
    let walk ← history.foldlM (LineageWalk.visit E trust identity role certificates)
      ⟨root, none, 0, [], 0⟩
    ensure (walk.verified = certificates.length) "orphan certificate row"
    let last ← require walk.previous "certificate history missing"
    ensure ((last.plan.localPlan role).checkpoint = base) "certificate lineage/base mismatch"
    let anchor ← require (last.plan.localPlan role).recoveryAnchor "certificate anchor missing"
    pure (some ⟨anchor, base, walk.firstRevision, last.request.revision, walk.verified⟩)

/-- The archived completion belongs to the latest certificate. `terminated` accounts for
an archive that a participant loss wrote. -/
def verifyCertified (base : Option Prefix) (identity : Identity) (role : Role)
    (trust : Option Trust) (terminated : ℕ × Id × Id × Id → Result Unit) : Result Unit := do
  let lineage ← segments.verifyMetadata E base identity role segments.version trust
  if segments.version = 3 then do
    let trust ← require trust "transition trust required"
    let record ← queried segments.completion
    let lineage ← require lineage "certified lineage missing"
    let certificate ← queried segments.latest
    ensure (E.bytes (E.encode certificate) ≤ maxCertificateBytes) "certificate record limit"
    let verified ← E.verifyHistorical certificate.token trust certificate.request
    ensure ((record.1 = 1 ∨ record.1 = 2) ∧ record.2.1 = certificate.request.id ∧
      record.2.2.1 = verified.tokenDigest ∧ record.2.2.2 ≠ zeroId ∧
      lineage.lastRevision = certificate.request.revision) "certified completion archive mismatch"
    if record.1 = 2 then terminated record else pure ()
  else pure ()

variable {E} {segments}

/-- A lineage is read off a walk over the whole history. -/
theorem verifyMetadata_eq_ok {base : Option Prefix} {identity : Identity} {role : Role}
    {opened : Option Trust} {lineage : VerifiedLineage}
    (ok : segments.verifyMetadata E base identity role 3 opened = .ok (some lineage)) :
    base = some lineage.currentBase ∧ ∃ certificates trust history root walk last,
      segments.certificates = some certificates ∧
      List.foldlM (LineageWalk.visit E trust identity role certificates) ⟨root, none, 0, [], 0⟩
        history = .ok walk ∧
      walk.verified = certificates.length ∧ walk.previous = some last ∧
      lineage.lastRevision = last.request.revision := by
  simp only [verifyMetadata, ne_eq, not_true_eq_false, if_false, run_ok, Replication.ensure_eq_ok,
    require_eq_ok, Option.some.injEq] at ok
  obtain ⟨certificates, stored, trust, trusted, current, based, count, history, planned, small, root,
    rooted, short, walk, walked, all, last, newest, latest, anchor, anchored, rfl⟩ := ok
  exact ⟨based, certificates, trust, history, root, walk, last, stored, walked, all, newest, rfl⟩

end Segments

end TerrapiVault.Maintenance
