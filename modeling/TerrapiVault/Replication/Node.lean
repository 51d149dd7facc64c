import TerrapiVault.Replication.Checkpoint
import TerrapiVault.Replication.Reference

/-! The reference node: its protocol tables and the calls of the ordinary write
path. A call returns its reply with the new node, or an error that leaves the node
as it was; `random` is the value drawn by the revision trigger or the generation. -/
namespace TerrapiVault.Replication

variable {D : Type}

namespace Publication

structure Proposal (D : Type) where
  checkpoint : Checkpoint ℕ D
  token : Bytes32
  primaryGeneration : Bytes32
  secondaryGeneration : Bytes32
deriving DecidableEq

inductive Phase where
  | captured
  | confirmed
deriving DecidableEq, Repr

structure Record (D : Type) where
  proposal : Proposal D
  phase : Phase
deriving DecidableEq

end Publication

structure SnapshotManifest (D : Type) where
  head : JournalHead ℕ D
  checkpoint : Checkpoint ℕ D
deriving DecidableEq

structure SnapshotProgress (D : Type) where
  manifest : SnapshotManifest D
  token : Bytes32
  received : ℕ
  bytes : ℕ
  complete : Bool
deriving DecidableEq

structure Snapshot (D : Type) where
  identity : Identity ℕ
  view : View
  entries : List (RefEntry D)
  digest : D
  receiptDigest : D

namespace Materialized

structure Manifest (D : Type) where
  publication : Option (Publication.Proposal D)
  head : JournalHead ℕ D
  checkpoint : Checkpoint ℕ D
  places : ℕ
  features : ℕ
  receipts : ℕ
deriving DecidableEq

inductive Row (D : Type) where
  | place (place : Place)
  | feature (feature : Feature)
  | receipt (receipt : OperationReceipt D)
deriving DecidableEq

structure Page (D : Type) where
  manifest : Manifest D
  after : ℕ
  rows : List (Row D)

structure Progress (D : Type) where
  manifest : Manifest D
  token : Bytes32
  received : ℕ
  bytes : ℕ
  complete : Bool
deriving DecidableEq

end Materialized

/-- Presence of the `recovery_seal` and `recovery_active` tables. -/
inductive Recovery where
  | unbound
  | sealed
  | active
deriving DecidableEq, Repr

structure Contract (D : Type) where
  format : ℕ
  schemaName : String
  schemaVersion : ℕ
  fingerprintVersion : ℕ
  catalogDigest : D
deriving DecidableEq

structure Summary (D : Type) where
  schemaContract : Contract D
  membership : Option Bytes32
  head : JournalHead ℕ D
  role : Role
  cipherVersion : String
  synchronous : ℕ
  journalMode : String

structure Node (D : Type) where
  role : Role
  identity : Identity ℕ
  recovery : Recovery
  store : RefStore D
  published : Option (Publication.Record D)
  publishedView : View
  publishedReceipts : List (OperationReceipt D)
  snapshotTransfer : Option (SnapshotProgress D)
  snapshotEntries : List (RefEntry D)
  materializedTransfer : Option (Materialized.Progress D)
  materializedRows : List (ℕ × Materialized.Row D)

namespace Node

/-- `Node::open` on a missing path: empty tables and fresh random values. -/
def create (role : Role) (identity : Identity ℕ) (generation revision : Bytes32) : Node D where
  role := role
  identity := identity
  recovery := .unbound
  store := ⟨View.empty, [], [], none, none, generation, revision⟩
  published := none
  publishedView := View.empty
  publishedReceipts := []
  snapshotTransfer := none
  snapshotEntries := []
  materializedTransfer := none
  materializedRows := []

/-! Gates. -/

/-- `recovery::activation::admission` in a build without `experimental-recovery`. -/
def admission (node : Node D) : Result Unit :=
  match node.recovery with
  | .unbound => pure ()
  | .sealed => throw (.message "recovery sealed; data mutations disabled")
  | .active => throw (.message "recovered node requires experimental-recovery build")

/-- `recovery::activation::bootstrap`. -/
def bootstrap (node : Node D) : Result Unit :=
  ensure (node.recovery = .unbound) "bootstrap forbidden for recovery-bound node"

/-- `recovery::activation::pair_digest`; only an active membership has one. -/
def pairDigest (node : Node D) : Result (Option Bytes32) := do
  node.admission
  pure none

/-- `Node::required_recovery_peer`. -/
def requiredRecoveryPeer (node : Node D) : Result (Option Bytes32) :=
  match node.recovery with
  | .unbound => pure none
  | .sealed => throw (.message "sealed node has no active peer")
  | .active => throw (.message "recovered node requires experimental-recovery build")

/-- `Node::recovery_member_identity`, the replica's `peer_identity`. -/
def peerIdentity (node : Node D) : Result (Option Bytes32) :=
  match node.recovery with
  | .unbound => pure none
  | .sealed => throw (.message "sealed member not active")
  | .active => throw (.message "recovered node requires experimental-recovery build")

/-- `materialized::ensure_idle`. -/
def materializedIdle (node : Node D) : Result Unit :=
  ensure (∀ p ∈ node.materializedTransfer, p.complete = true) "materialized transfer in progress"

/-- `snapshot_staging::ensure_idle`. -/
def transferIdle (node : Node D) : Result Unit := do
  node.materializedIdle
  ensure (∀ p ∈ node.snapshotTransfer, p.complete = true) "snapshot transfer in progress"

/-- `publication::ensure_idle`. -/
def publicationIdle (node : Node D) : Result Unit :=
  ensure (∀ r ∈ node.published, r.phase = .confirmed) "base publication in progress"

/-- `publication::ensure_absent`. -/
def publicationAbsent (node : Node D) : Result Unit :=
  ensure (node.published = none) "bootstrap target has published base"

variable [DecidableEq D] (X : Engine D)

/-! Reads. -/

def schemaContract : Contract D := ⟨1, "proximiio.core-geo", 1, 1, X.catalogDigest⟩

def journalHead (node : Node D) : Result (JournalHead ℕ D) := node.store.head node.identity

def summary (node : Node D) : Result (Summary D) := do
  let membership ← node.pairDigest
  let head ← node.journalHead
  pure ⟨schemaContract X, membership, head, node.role, X.cipherVersion, 2, "wal"⟩

def journalPage (node : Node D) (expected : JournalHead ℕ D) (after limit : ℕ) :
    Result (JournalPage Change ℕ D) :=
  node.store.journalPage X.schema node.identity expected after limit

def operation (node : Node D) (id : String) : Result (Option (RefEntry D)) :=
  node.store.byOperation X.schema id

def checkpoint (node : Node D) : Result (Checkpoint ℕ D) := do
  let (checkpoint, _) ← node.store.current X.schema node.identity true
  pure checkpoint

def checkpointAt (node : Node D) (sequence : ℕ) : Result (Checkpoint ℕ D) :=
  node.store.calculate X.schema node.identity true (some sequence)

def receipt (node : Node D) (id : String) : Result (Option (OperationReceipt D)) :=
  node.store.receipt X.schema node.identity id

def completedResult (node : Node D) (batch : Batch Change ℕ) : Result (Option WriteResult) :=
  node.store.completedResult X.schema node.identity batch

def verifiedView (node : Node D) : Result (Option View) := do
  ensure (node.role = .secondary) "read admission is secondary-only"
  node.store.verifiedView X.schema node.identity

/-! The write path. -/

/-- The entry `prepare` builds from a captured request. -/
def preparedEntry (node : Node D) (batch : Batch Change ℕ) (sequence : ℕ) (next : View)
    (changeset : List UInt8) : RefEntry D :=
  let before := X.schema.viewDigest node.store.data
  let after := X.schema.viewDigest next
  { batch := batch
    sequence := sequence
    before := before
    after := after
    changeset := changeset
    digest := X.schema.hash (.entry batch sequence before after changeset)
    state := .prepared }

def prepare (node : Node D) (batch : Batch Change ℕ) (random : Bytes32) :
    Result (RefEntry D × Node D) := do
  ensure (node.role = .primary) "only fixed primary may prepare"
  ensure (batch.identity = node.identity ∧ batch.operationId ≠ "") "invalid batch identity"
  node.admission
  match ← node.store.byOperation X.schema batch.operationId with
  | some e =>
    let _ ← node.store.validateEntry X.schema e
    ensure (e.batch = batch) "idempotency key reused for different request"
    pure (e, node)
  | none =>
    let known ← node.store.getReceipt X.schema batch.operationId
    ensure (known = none) "historical operation requires receipt retry, not prepare"
    let head ← node.journalHead
    ensure (head.length + 1 < 2 ^ 64) "sequence overflow"
    node.publicationIdle
    ensure (node.store.resolved = true) "recovery required"
    let (next, changeset) ← X.schema.capture node.store.data batch.changes
    let e := node.preparedEntry X batch (head.length + 1) next changeset
    checkEntrySize X.schema e
    let store ← node.store.save X.schema e random
    pure (e, { node with store := store })

def stage (node : Node D) (entry : RefEntry D) (random : Bytes32) :
    Result (Unit × Node D) := do
  ensure (node.role = .secondary) "only secondary may stage"
  entry.validate X.schema node.identity
  checkEntrySize X.schema entry
  node.admission
  node.transferIdle
  match ← node.store.bySequence X.schema entry.sequence with
  | some old =>
    ensure (old.digest = entry.digest) "divergent log"
    pure ((), node)
  | none =>
    node.publicationIdle
    let head ← node.journalHead
    ensure (entry.sequence = head.length + 1 ∧ node.store.resolved = true) "out-of-order stage"
    ensure (X.schema.viewDigest node.store.data = entry.before) "base state mismatch"
    let _ ← X.schema.replayData node.store.data entry.before entry.after entry.changeset
    let store ← node.store.save X.schema (entry.withState .prepared) random
    pure ((), { node with store := store })

def decide (node : Node D) (operationId : String) (random : Bytes32) :
    Result (RefEntry D × Node D) := do
  ensure (node.role = .primary) "only primary decides"
  node.admission
  match ← node.store.byOperation X.schema operationId with
  | none => throw (.message "unknown operation")
  | some e =>
    if e.state = .prepared then
      let store ← node.store.save X.schema (e.withState .decided) random
      pure (e.withState .decided, { node with store := store })
    else pure (e, node)

/-- Whether a secondary is admitted for reads before it applies an entry. -/
def readVerified (node : Node D) : Result Bool :=
  if node.role = .secondary then do
    let view ← node.store.verifiedView X.schema node.identity
    pure view.isSome
  else pure false

/-- Read admission moves along with an applied entry, in the same transaction. -/
def keepVerified (verified : Bool) (identity : Identity ℕ) (store : RefStore D) :
    Result (RefStore D) :=
  if verified then store.advanceReadiness X.schema identity else pure store

def apply (node : Node D) (decision : RefEntry D) (random : Bytes32) :
    Result (Unit × Node D) := do
  decision.validate X.schema node.identity
  ensure (decision.state ≠ .prepared) "commit decision required"
  node.admission
  node.transferIdle
  match ← node.store.bySequence X.schema decision.sequence with
  | none => throw (.message "not staged")
  | some e =>
    ensure (e.digest = decision.digest) "decision mismatch"
    if e.state = .applied then
      let _ ← node.store.validateEntry X.schema e
      pure ((), node)
    else
      ensure (node.role = .secondary ∨ e.state = .decided) "primary has no durable decision"
      ensure (X.schema.viewDigest node.store.data = e.before) "base state mismatch"
      let verified ← node.readVerified X
      let data ← X.schema.replayData node.store.data e.before e.after e.changeset
      let store ← Store.save X.schema { node.store with data := data } (e.withState .applied)
        random
      let store ← keepVerified X verified node.identity store
      pure ((), { node with store := store })

/-- Only a prepared entry at the end of the journal can be removed. -/
def abortable (node : Node D) (e : RefEntry D) : Result Bool :=
  if e.state = .prepared then do
    let last ← node.store.tail X.schema
    pure (last = some e : Bool)
  else pure false

def abort (node : Node D) (operationId : String) (random : Bytes32) :
    Result (Unit × Node D) := do
  node.admission
  node.transferIdle
  match ← node.store.byOperation X.schema operationId with
  | none => pure ((), node)
  | some e =>
    let abortable ← node.abortable X e
    ensure (abortable = true) "cannot abort committed/non-tail entry"
    let log := node.store.log.filter fun row => row.batch.operationId ≠ operationId
    pure ((), { node with store := { node.store with log := log, revision := random } })

/-! Read admission. -/

def confirmCheckpoint (node : Node D) (expected : Checkpoint ℕ D) : Result (Unit × Node D) := do
  ensure (node.role = .secondary ∧ expected.identity = node.identity)
    "checkpoint identity/role mismatch"
  node.transferIdle
  let (actual, _) ← node.store.current X.schema node.identity true
  ensure (actual = expected) "checkpoint mismatch"
  pure ((), { node with store := { node.store with readiness := some expected } })

def confirmGeneration (node : Node D) (expected : Checkpoint ℕ D)
    (expectedGeneration : Bytes32) : Result (Unit × Node D) := do
  ensure (node.store.generation = expectedGeneration) "stale admission generation"
  node.confirmCheckpoint X expected

def quarantine (node : Node D) (random : Bytes32) : Result (Unit × Node D) := do
  ensure (node.role = .secondary) "quarantine is secondary-only"
  pure ((), { node with store := { node.store with readiness := none, generation := random } })

end Node

end TerrapiVault.Replication
