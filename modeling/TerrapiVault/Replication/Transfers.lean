import TerrapiVault.Replication.Node

/-! Base publication on one node, and the ways to fill an empty secondary. A publication is an
immutable copy of the view and the receipts at a checkpoint; its activation as the journal's
base leaves every journal row where it is. -/
namespace TerrapiVault.Replication

variable {D : Type}

open JsonSize in
/-- Length of the receipt's stored JSON. -/
def OperationReceipt.size (length : D → ℕ) (r : OperationReceipt D) : ℕ :=
  object [("fingerprint_version", number r.fingerprintVersion),
    ("request_digest", 2 + length r.requestDigest), ("result_version", number r.resultVersion),
    ("result", object [("operation_id", text r.result.operationId),
      ("sequence", number r.result.sequence)])]

namespace Materialized

def maxRows : ℕ := 100000

def maxBytes : ℕ := 256 * 1024 * 1024

end Materialized

/-- The generation a proposal was made for, on the node of the given role. -/
def Publication.Proposal.generationOf (p : Publication.Proposal D) : Role → Bytes32
  | .primary => p.primaryGeneration
  | .secondary => p.secondaryGeneration

namespace Node

variable [DecidableEq D] (X : Engine D)

/-- `publication::validate`. -/
def validatePublication (node : Node D) : Result (Option (Publication.Record D)) := do
  match node.published with
  | some r =>
    let cp := r.proposal.checkpoint
    ensure (cp.identity = node.identity ∧ cp.format = 1 ∧
      cp.sequence = node.publishedReceipts.length) "invalid published base metadata"
    let content ← if X.schema.viewDigest node.publishedView = cp.viewDigest then do
        let digest ← Store.receiptDigestFrom X.schema node.publishedReceipts cp.sequence
        pure (digest = cp.receiptDigest : Bool)
      else pure false
    ensure (content = true) "published base content mismatch"
    let history ← node.store.calculate X.schema node.identity true (some cp.sequence)
    ensure (history = cp) "published base history mismatch"
  | none =>
    ensure (node.publishedView.places.length = 0 ∧ node.publishedView.features.length = 0 ∧
      node.publishedReceipts.length = 0) "orphan published base rows"
  pure node.published

/-- `publication::bind`. -/
def bindProposal (node : Node D) (p : Publication.Proposal D) : Result Unit := do
  ensure (p.checkpoint.identity = node.identity ∧ p.checkpoint.format = 1)
    "publication identity/format mismatch"
  ensure (node.store.generation = p.generationOf node.role) "stale publication generation"

/-- `publication::validate_primary_base`. -/
def validatePrimaryBase (node : Node D) : Result Unit := do
  if node.recovery = .active then
    throw (.message "recovered node requires experimental-recovery build")
  if node.role = .primary then
    match node.store.base with
    | none => pure ()
    | some base =>
      match ← node.validatePublication X with
      | none => throw (.message "primary base has no publication")
      | some r =>
        ensure (r.phase = .confirmed ∧ r.proposal.checkpoint = base)
          "primary base not confirmed locally"
        node.bindProposal r.proposal

def baseStatus (node : Node D) : Result (Option (Publication.Record D)) :=
  node.validatePublication X

/-- Rows and bytes the artifact of the live tables would hold. -/
def publicationQuota (node : Node D) : ℕ × ℕ :=
  let view := node.store.data
  (view.places.length + view.features.length + node.store.receipts.length,
    (view.places.map fun p => p.id.utf8ByteSize + p.name.utf8ByteSize).sum +
    (view.features.map fun f =>
      f.id.utf8ByteSize + f.placeId.utf8ByteSize + f.geojson.utf8ByteSize).sum +
    (node.store.receipts.map fun r =>
      r.result.operationId.utf8ByteSize + r.size X.length).sum)

def captureBase (node : Node D) (proposal : Publication.Proposal D) :
    Result (Publication.Record D × Node D) := do
  node.admission
  node.bindProposal proposal
  match ← node.validatePublication X with
  | some r =>
    ensure (r.proposal = proposal) "published base slot already occupied"
    pure (r, node)
  | none =>
    node.transferIdle
    let (current, _) ← node.store.current X.schema node.identity true
    ensure (current = proposal.checkpoint) "publication requires matching quiescent checkpoint"
    let (rows, bytes) := node.publicationQuota X
    ensure (rows ≤ Materialized.maxRows ∧ bytes ≤ Materialized.maxBytes)
      "published base logical quota exceeded"
    let r : Publication.Record D := ⟨proposal, .captured⟩
    let node := { node with published := some r
                            publishedView := node.store.data
                            publishedReceipts := node.store.receipts }
    let _ ← node.validatePublication X
    pure (r, node)

def confirmBase (node : Node D) (proposal : Publication.Proposal D) :
    Result (Publication.Record D × Node D) := do
  node.bindProposal proposal
  match ← node.validatePublication X with
  | none => throw (.message "base not captured")
  | some r =>
    ensure (r.proposal = proposal) "publication proposal mismatch"
    let r := { r with phase := .confirmed }
    pure (r, { node with published := some r })

def activatePublishedBase (node : Node D) (proposal : Publication.Proposal D)
    (random : Bytes32) : Result (Unit × Node D) := do
  node.admission
  let digest ← node.pairDigest
  ensure (digest = none) "recovered base rotation not supported"
  node.bindProposal proposal
  match ← node.validatePublication X with
  | none => throw (.message "no published base")
  | some r =>
    ensure (r.phase = .confirmed ∧ r.proposal = proposal)
      "activation requires matching confirmed publication"
    if node.store.base = some proposal.checkpoint then pure ((), node)
    else
      ensure (∀ b ∈ node.store.base, b.sequence < proposal.checkpoint.sequence)
        "base cannot move backwards"
      node.transferIdle
      let (before, _) ← node.store.current X.schema node.identity true
      let store := { node.store with base := some proposal.checkpoint }
      let (after, _) ← store.current X.schema node.identity true
      ensure (after = before) "activation changed current checkpoint"
      pure ((), { node with store := { store with revision := random } })

/-- The checks of `Node::open` on an existing database, without those of its path, lock,
passphrase, stored role and identity, schema contract and table definitions. -/
def reopen (node : Node D) : Result Unit := do
  ensure (node.identity.schema = 1 ∧ 0 < node.identity.epoch) "unsupported identity"
  let _ ← node.store.current X.schema node.identity false
  let _ ← node.validatePublication X
  node.validatePrimaryBase X

end Node

/-! A replayed snapshot in one call or in journal pages, and a materialized copy of the view
and the receipts in row pages. -/

def maxStagedBytes : ℕ := 256 * 1024 * 1024

def maxStagedEntries : ℕ := 100000

namespace Materialized

/-- `Manifest::rows`, checked 64 bit additions. -/
def Manifest.rows (m : Manifest D) : Result ℕ := do
  ensure (m.places + m.features + m.receipts < 2 ^ 64) "snapshot row count overflow"
  pure (m.places + m.features + m.receipts)

open JsonSize in
def Row.size (length : D → ℕ) : Row D → ℕ
  | .place p => object [("Place", object [("id", text p.id), ("name", text p.name)])]
  | .feature f => object [("Feature",
      object [("id", text f.id), ("place_id", text f.placeId), ("geojson", text f.geojson)])]
  | .receipt r => object [("Receipt", r.size length)]

section

variable [DecidableEq D]

def Manifest.validate (length : D → ℕ) (m : Manifest D) : Result Unit := do
  match m.publication with
  | none => pure ()
  | some p =>
    ensure (p.checkpoint = m.checkpoint ∧ p.token = m.head.revision ∧
      p.primaryGeneration = m.head.readGeneration) "invalid published manifest binding"
  let rows ← m.rows
  ensure (rows ≤ maxRows ∧ m.receipts = m.checkpoint.sequence ∧
    m.head.length = m.checkpoint.sequence ∧ m.head.identity = m.checkpoint.identity ∧
    (∀ b ∈ m.head.base, b.format = 1 ∧ b.identity = m.checkpoint.identity ∧
      b.sequence ≤ m.checkpoint.sequence) ∧
    m.checkpoint.format = 1 ∧ length m.checkpoint.viewDigest = 64 ∧
    length m.checkpoint.receiptDigest = 64 ∧ length m.checkpoint.journalDigest = 64)
    "invalid materialized manifest"

end

/-- One row of `Page::validate`, at row number `n` of the manifest's order. -/
def Row.validate (length : D → ℕ) (m : Manifest D) (n : ℕ) : Row D → Result Unit
  | .place _ => ensure (n < m.places) "unexpected place row"
  | .feature _ => ensure (m.places ≤ n ∧ n < m.places + m.features) "unexpected feature row"
  | .receipt r =>
    ensure (m.places + m.features ≤ n ∧ r.result.sequence = n - m.places - m.features + 1 ∧
      r.result.operationId ≠ "" ∧ r.fingerprintVersion = 1 ∧ r.resultVersion = 1 ∧
      length r.requestDigest = 64) "invalid materialized receipt"

def Page.validateRows (length : D → ℕ) (m : Manifest D) : ℕ → ℕ → List (Row D) → Result Unit
  | _, _, [] => pure ()
  | n, bytes, row :: rest => do
    row.validate length m n
    ensure (bytes + row.size length + 1 ≤ maxPageBytes) "materialized page byte limit"
    validateRows length m (n + 1) (bytes + row.size length + 1) rest

def Page.validate [DecidableEq D] (length : D → ℕ) (page : Page D) : Result Unit := do
  page.manifest.validate length
  let total ← page.manifest.rows
  ensure (page.after ≤ total ∧ page.rows.length ≤ maxPageEntries ∧
    page.rows.length ≤ total - page.after ∧ (page.rows ≠ [] ∨ page.after = total))
    "invalid materialized page range"
  Page.validateRows length page.manifest page.after 0 page.rows

end Materialized

namespace Node

variable [DecidableEq D] (X : Engine D)

/-! `Node::install`. -/

/-- `journal::replay_history_in`; `count` entries are already there. -/
def replayHistory (identity : Identity ℕ) (random : Bytes32) :
    ℕ → List (RefEntry D) → RefStore D → Result (RefStore D)
  | _, [], st => pure st
  | count, e :: rest, st => do
    e.validate X.schema identity
    checkEntrySize X.schema e
    ensure (e.state = .applied ∧ e.sequence = count + 1 ∧
      e.before = X.schema.viewDigest st.data) "invalid snapshot history"
    let data ← X.schema.replayData st.data e.before e.after e.changeset
    let st ← Store.write X.schema { st with data := data } e random
    let st ← st.insertReceipt X.schema e
    replayHistory identity random (count + 1) rest st

def install (node : Node D) (snapshot : Snapshot D) (random : Bytes32) :
    Result (Unit × Node D) := do
  ensure (node.role = .secondary ∧ snapshot.identity = node.identity) "snapshot target mismatch"
  ensure (snapshot.digest = X.schema.hash (.snapshot snapshot.identity snapshot.view
    snapshot.entries snapshot.receiptDigest)) "snapshot checksum mismatch"
  node.bootstrap
  node.transferIdle
  node.publicationAbsent
  let entries ← node.store.all X.schema
  ensure (entries = [] ∧ node.store.data = View.empty ∧ node.store.receipts.length = 0 ∧
    node.store.base = none) "snapshot target must be empty"
  let store ← replayHistory X node.identity random 0 snapshot.entries node.store
  ensure (store.data = snapshot.view) "snapshot content/history mismatch"
  let (current, _) ← store.current X.schema node.identity true
  ensure (current.receiptDigest = snapshot.receiptDigest) "snapshot receipt mismatch"
  pure ((), { node with store := { store with readiness := none } })

/-! `snapshot_staging`. -/

/-- `snapshot_staging::ensure_empty`. -/
def ensureEmpty (node : Node D) : Result Unit :=
  ensure (node.store.log = [] ∧ node.store.data.places = [] ∧ node.store.data.features = [] ∧
    node.store.receipts.length = 0 ∧ node.store.base.isNone = true) "snapshot target must be empty"

/-- `snapshot_staging::load_token`. -/
def loadToken (node : Node D) (token : Bytes32) : Result (SnapshotProgress D) :=
  match node.snapshotTransfer with
  | none => throw (.message "no snapshot transfer")
  | some p => do
    ensure (p.token = token ∧ node.store.generation = token) "stale snapshot token"
    pure p

def snapshotBegin (node : Node D) (manifest : SnapshotManifest D) (random : Bytes32) :
    Result (SnapshotProgress D × Node D) := do
  ensure (node.role = .secondary ∧ manifest.head.identity = node.identity ∧
    manifest.checkpoint.identity = node.identity) "snapshot identity/role mismatch"
  ensure (manifest.head.length = manifest.checkpoint.sequence ∧
    manifest.head.length ≤ maxStagedEntries ∧ X.length manifest.checkpoint.receiptDigest = 64 ∧
    manifest.checkpoint.format = 1 ∧ manifest.head.base = none) "invalid snapshot length"
  node.bootstrap
  node.materializedIdle
  match node.snapshotTransfer with
  | some p =>
    ensure (p.manifest = manifest) "different snapshot requires explicit cancellation"
    let _ ← node.loadToken p.token
    if p.complete then
      let (current, _) ← node.store.current X.schema node.identity true
      ensure (current = manifest.checkpoint) "completed snapshot no longer current"
    pure (p, node)
  | none =>
    node.publicationAbsent
    node.ensureEmpty
    let p : SnapshotProgress D := ⟨manifest, random, 0, 0, false⟩
    pure (p, { node with snapshotTransfer := some p
                         store := { node.store with readiness := none, generation := random } })

/-- Retried entries must match the staged ones. -/
def retrySnapshotEntries (staged : List (RefEntry D)) :
    List (RefEntry D) → Result Unit
  | [] => pure ()
  | e :: rest => do
    match staged.find? fun row => row.sequence = e.sequence with
    | none => throw (.message "Query returned no rows")
    | some old => ensure (old = e) "conflicting snapshot retry"
    retrySnapshotEntries staged rest

def stageSnapshotEntries : List (RefEntry D) → ℕ → List (RefEntry D) →
    Result (ℕ × List (RefEntry D))
  | [], bytes, staged => pure (bytes, staged)
  | e :: rest, bytes, staged => do
    let bytes := bytes + e.size X.schema
    ensure (bytes < 2 ^ 64) "snapshot size overflow"
    ensure (bytes ≤ maxStagedBytes) "snapshot staging quota exceeded"
    let _ ← sqlInteger e.sequence
    Checked.ensure (∀ row ∈ staged, row.sequence ≠ e.sequence) Fault.constraintViolation
    stageSnapshotEntries rest bytes (Table.put Entry.sequence staged e)

def snapshotChunk (node : Node D) (token : Bytes32) (page : JournalPage Change ℕ D) :
    Result (SnapshotProgress D × Node D) := do
  ensure (node.role = .secondary) "snapshot receiver requires secondary"
  let p ← node.loadToken token
  ensure (p.complete = false) "snapshot already completed"
  page.validate X.schema p.manifest.head page.after maxPageEntries
  ensure (page.entries ≠ []) "empty snapshot chunk"
  let ending := page.after + page.entries.length
  ensure (page.after = p.received ∨ ending ≤ p.received) "snapshot gap/partial overlap"
  page.entries.forM fun e => do
    ensure (e.state = .applied) "snapshot contains pending entry"
    checkEntrySize X.schema e
  if ending ≤ p.received then
    retrySnapshotEntries node.snapshotEntries page.entries
    pure (p, node)
  else
    let (bytes, staged) ← stageSnapshotEntries X page.entries p.bytes node.snapshotEntries
    let p := { p with bytes := bytes, received := ending }
    pure (p, { node with snapshotTransfer := some p, snapshotEntries := staged })

/-- The replay loop of `snapshot_finish`: entries, bytes and the expected digest. -/
def replaySnapshot (identity : Identity ℕ) (random : Bytes32) :
    ℕ → ℕ → D → List (RefEntry D) → RefStore D →
      Result (ℕ × ℕ × RefStore D)
  | count, bytes, _, [], st => pure (count, bytes, st)
  | count, bytes, previous, e :: rest, st => do
    e.validate X.schema identity
    checkEntrySize X.schema e
    ensure (e.state = .applied ∧ e.sequence = count + 1 ∧ e.before = previous)
      "invalid snapshot history"
    let data ← X.schema.replayData st.data e.before e.after e.changeset
    let st ← Store.save X.schema { st with data := data } e random
    replaySnapshot identity random (count + 1) (bytes + e.size X.schema) e.after rest st

def snapshotFinish (node : Node D) (token : Bytes32) (random : Bytes32) :
    Result (SnapshotProgress D × Node D) := do
  ensure (node.role = .secondary) "snapshot receiver requires secondary"
  let p ← node.loadToken token
  if p.complete then
    let (current, _) ← node.store.current X.schema node.identity true
    ensure (current = p.manifest.checkpoint) "completed snapshot no longer current"
    pure (p, node)
  else
    ensure (p.received = p.manifest.head.length) "snapshot incomplete"
    node.ensureEmpty
    let (count, bytes, store) ← replaySnapshot X node.identity random 0 0
      (X.schema.viewDigest View.empty) node.snapshotEntries node.store
    ensure (count = p.received ∧ bytes = p.bytes) "snapshot staging metadata mismatch"
    let (current, _) ← store.current X.schema node.identity true
    ensure (current = p.manifest.checkpoint) "snapshot checkpoint mismatch"
    let p := { p with complete := true }
    pure (p, { node with store := { store with readiness := none }
                         snapshotEntries := []
                         snapshotTransfer := some p })

def snapshotCancel (node : Node D) (token : Bytes32) : Result (Unit × Node D) := do
  ensure (node.role = .secondary) "snapshot receiver requires secondary"
  match node.snapshotTransfer with
  | none => throw (.message "no snapshot transfer")
  | some p =>
    ensure (p.token = token) "stale snapshot token"
    pure ((), { node with snapshotEntries := [], snapshotTransfer := none })

/-! `materialized`. -/

/-- `materialized::empty`. -/
def materializedEmpty (node : Node D) : Result Unit :=
  ensure (node.store.log = [] ∧ node.store.data.places = [] ∧ node.store.data.features = [] ∧
    node.store.receipts = [] ∧ node.store.base.isNone = true) "materialized target must be empty"

/-- `materialized::load`. -/
def loadMaterialized (node : Node D) (token : Bytes32) : Result (Materialized.Progress D) :=
  match node.materializedTransfer with
  | none => throw (.message "no materialized transfer")
  | some p => do
    ensure (p.token = token ∧ node.store.generation = token) "stale materialized token"
    pure p

def materializedBegin (node : Node D) (manifest : Materialized.Manifest D)
    (random : Bytes32) : Result (Materialized.Progress D × Node D) := do
  ensure (node.role = .secondary ∧ manifest.checkpoint.identity = node.identity)
    "materialized identity/role mismatch"
  manifest.validate X.length
  node.bootstrap
  match node.materializedTransfer with
  | some p =>
    ensure (p.manifest = manifest) "different materialized transfer requires cancellation"
    let _ ← node.loadMaterialized p.token
    if p.complete then
      let (current, _) ← node.store.current X.schema node.identity true
      ensure (current = manifest.checkpoint) "completed materialized snapshot no longer current"
    pure (p, node)
  | none =>
    node.transferIdle
    node.publicationAbsent
    node.materializedEmpty
    let p : Materialized.Progress D := ⟨manifest, random, 0, 0, false⟩
    pure (p, { node with materializedTransfer := some p
                         store := { node.store with readiness := none, generation := random } })

/-- The row loop of `materialized_chunk`: a retry compares, new rows are staged. -/
def stageMaterializedRows (retry : Bool) : ℕ → List (Materialized.Row D) → ℕ →
    List (ℕ × Materialized.Row D) → Result (ℕ × List (ℕ × Materialized.Row D))
  | _, [], bytes, staged => pure (bytes, staged)
  | position, row :: rest, bytes, staged =>
    if retry then do
      match staged.find? fun r => r.1 = position with
      | none => throw (.message "Query returned no rows")
      | some old => ensure (old.2 = row) "conflicting materialized retry"
      stageMaterializedRows retry (position + 1) rest bytes staged
    else do
      let bytes := bytes + row.size X.length
      ensure (bytes < 2 ^ 64) "materialized size overflow"
      ensure (bytes ≤ Materialized.maxBytes) "materialized staging quota exceeded"
      Checked.ensure (∀ r ∈ staged, r.1 ≠ position) Fault.constraintViolation
      stageMaterializedRows retry (position + 1) rest bytes
        (Table.put Prod.fst staged (position, row))

def materializedChunk (node : Node D) (token : Bytes32) (page : Materialized.Page D) :
    Result (Materialized.Progress D × Node D) := do
  ensure (node.role = .secondary) "materialized receiver requires secondary"
  page.validate X.length
  ensure (page.rows ≠ []) "empty materialized chunk"
  let p ← node.loadMaterialized token
  ensure (p.complete = false ∧ p.manifest = page.manifest)
    "materialized manifest/completion mismatch"
  let ending := page.after + page.rows.length
  ensure (page.after = p.received ∨ ending ≤ p.received) "materialized gap/partial overlap"
  let (bytes, staged) ← stageMaterializedRows X (ending ≤ p.received) page.after page.rows
    p.bytes node.materializedRows
  let p := { p with bytes := bytes, received := max p.received ending }
  pure (p, { node with materializedTransfer := some p, materializedRows := staged })

/-- One staged row goes into its live table. -/
def insertRow (st : RefStore D) : Materialized.Row D → Result (RefStore D)
  | .place p => do
    let view ← st.data.insertPlace p
    pure { st with data := view }
  | .feature f => do
    let view ← st.data.insertFeature X.jsonValid f
    pure { st with data := view }
  | .receipt r => do
    let _ ← sqlInteger r.result.sequence
    Checked.ensure (∀ old ∈ st.receipts, old.result.operationId ≠ r.result.operationId ∧
      old.result.sequence ≠ r.result.sequence) Fault.constraintViolation
    pure { st with receipts := Table.put (·.result.sequence) st.receipts r }

def insertRows (manifest : Materialized.Manifest D) : ℕ → ℕ → List (ℕ × Materialized.Row D) →
    RefStore D → Result (ℕ × ℕ × RefStore D)
  | count, bytes, [], st => pure (count, bytes, st)
  | count, bytes, (position, row) :: rest, st => do
    ensure (position = count) "materialized staging gap"
    Materialized.Page.validate X.length ⟨manifest, count, [row]⟩
    let st ← insertRow X st row
    insertRows manifest (count + 1) (bytes + row.size X.length) rest st

def materializedFinish (node : Node D) (token : Bytes32) :
    Result (Materialized.Progress D × Node D) := do
  ensure (node.role = .secondary) "materialized receiver requires secondary"
  let p ← node.loadMaterialized token
  if p.complete then
    let (current, _) ← node.store.current X.schema node.identity true
    ensure (current = p.manifest.checkpoint) "completed materialized snapshot no longer current"
    pure (p, node)
  else
    let total ← p.manifest.rows
    ensure (p.received = total) "materialized snapshot incomplete"
    node.materializedEmpty
    let (count, bytes, store) ← insertRows X p.manifest 0 0 node.materializedRows node.store
    ensure (count = p.received ∧ bytes = p.bytes ∧ bytes ≤ Materialized.maxBytes)
      "materialized staging metadata mismatch"
    let store := { store with base := some p.manifest.checkpoint }
    let (current, _) ← store.current X.schema node.identity true
    ensure (current = p.manifest.checkpoint) "materialized checkpoint mismatch"
    let p := { p with complete := true }
    pure (p, { node with store := { store with readiness := none }
                         materializedRows := []
                         materializedTransfer := some p })

def materializedCancel (node : Node D) (token : Bytes32) : Result (Unit × Node D) := do
  ensure (node.role = .secondary) "materialized receiver requires secondary"
  match node.materializedTransfer with
  | none => throw (.message "no materialized transfer")
  | some p =>
    ensure (p.token = token) "stale materialized token"
    pure ((), { node with materializedRows := [], materializedTransfer := none })

end Node

end TerrapiVault.Replication
