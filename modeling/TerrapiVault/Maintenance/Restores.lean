import TerrapiVault.Maintenance.Lifecycle

/-! Compaction of a pair that never lost a member, and the restore of a frozen publication into
an empty secondary. Each call is a transaction on one file. The application stages its rows
in tables of its own, before the transaction of the restore; these enter through `Staging`. -/
namespace TerrapiVault.Maintenance

open Replication
open Recovery

/-- `compaction::Phase`. -/
inductive Compaction.Phase where
  | prepared
  | decided
  | applied
  | complete
deriving DecidableEq

/-- `compaction::Progress`. -/
structure Compaction where
  plan : PairPlan
  phase : Compaction.Phase

/-- `snapshot::Page`; `R` is a page of application rows. -/
structure Page (R : Type) where
  manifestDigest : String
  position : ℕ
  content : R ⊕ List (OperationReceipt String)

/-- The tables of compaction and restore. The digest column of `node_compaction` is left out:
it is written with the record. -/
structure Slots (F R : Type) where
  compaction : Option Compaction
  restore : Option (Manifest × ℕ)
  pages : List (ℕ × Page R)
  restored : Option Manifest
  rest : F

abbrev File (F C V R : Type) : Type := Node (Slots F R) C V

/-- `sql_snapshot` for the rows of an application, the receipt format of a file, and
`recovery_admission`. `progress` tells the manifest of the staged rows and whether they are
live; `staged` whether a row or a progress is left. -/
structure Staging (F C V R : Type) extends Host (Slots F R) C V where
  recoveryAdmission : File F C V R → Result Unit
  manifestDigest : Manifest → String
  encodeRows : R → Result Unit
  receiptFormat : F → Result ℕ
  installLedger : F → Result F
  progress : F → Result (Option (DataManifest × Bool))
  beginRows : Scope → DataManifest → F → Result F
  receiveRows : Scope → R → F → Result F
  finishRows : Scope → F → V → Result (F × V)
  staged : F → Bool
  discard : F → F

variable {T : Type → Type} (E : Env T) {F C V R : Type} (S : Staging F C V R)

def Page.encode (page : Page R) : Result Unit := do
  ensure (page.position < maxPages ∧ page.manifestDigest.utf8ByteSize = 64)
    "invalid typed snapshot page"
  match page.content with
  | .inl rows => S.encodeRows rows
  | .inr receipts => ensure (receipts ≠ [] ∧ receipts.length ≤ 256) "invalid receipt page count"
  ensure (E.bytes (E.encode page) ≤ 1024 * 1024 + 4096) "typed snapshot page too large"

namespace Node

variable (n : File F C V R) (opened : Opened) (random : Bytes32)

/-- `compaction::state`. -/
def compaction : Result (Option Compaction) := do
  n.files.compaction.forM fun r => do
    ensure (E.bytes (E.encode r) ≤ 128 * 1024) "compaction record too large"
    r.plan.validate E
  pure n.files.compaction

/-- `compaction::save`. -/
def saveCompaction (r : Compaction) : Result (File F C V R) := do
  r.plan.validate E
  ensure (E.bytes (E.encode r) ≤ 128 * 1024) "compaction record too large"
  pure { n with files := { n.files with compaction := some r } }

def requireIdle : Result Unit := do
  let found ← n.compaction E
  ensure (∀ r ∈ found, r.phase = .complete) "compaction requires completion"

/-- The move of `compaction_step` from decided to applied. -/
def compact (plan : PairPlan) : Result (File F C V R) := do
  S.recoveryAdmission n
  let own := plan.localPlan n.role
  let (checkpoint, _) ← n.store.current S.schema n.identity true
  ensure (checkpoint = own.checkpoint) "compaction cut changed"
  let head ← n.store.head n.identity
  ensure (head = own.head) "compaction cut changed"
  n.requireUnpinned
  let publication ← require own.publication "missing publication"
  n.verifyPublicationIn E S.toHost publication
  let history ← insertSequence (← queried n.segments.history) (own.checkpoint.sequence, plan)
  let cut := { n.store.pruned own.checkpoint random with revision := random }
  let (after, _) ← cut.current S.schema n.identity true
  ensure (after = own.checkpoint) "compaction changed checkpoint"
  pure { n with store := cut, segments := { n.segments with history := some history } }

def compactionStep (plan : PairPlan) (target : Compaction.Phase) :
    Result (File F C V R) := do
  S.noLossRecovery n.files
  n.verifyOwner E S.toHost opened.transitionTrust
  let r ← require (← n.compaction E) "compaction not prepared"
  ensure (r.plan = plan) "compaction plan mismatch"
  if r.phase = target ∨ r.phase = .complete then pure n
  else match r.phase, target with
    | .prepared, .decided | .applied, .complete => n.saveCompaction E ⟨plan, target⟩
    | .decided, .applied => do
      let cut ← n.compact E S random plan
      cut.saveCompaction E ⟨plan, target⟩
    | .applied, .decided => pure n
    | _, _ => throw (.message "invalid compaction transition")

def restoreManifestIn : Result (Manifest × ℕ) := do
  let (manifest, next) ← queried n.files.restore
  n.validateManifest E S.toHost manifest
  ensure (next ≤ manifest.pages) "invalid snapshot progress"
  ensure (n.files.pages.length = next ∧
    (n.files.pages.map Prod.fst).max? = if next = 0 then none else some (next - 1))
    "invalid snapshot staging prefix"
  let progress ← S.progress n.files.rest
  ensure (∀ p ∈ progress, p = (manifest.data, false)) "orphan completed SQL snapshot"
  pure (manifest, next)

def loadPage (manifest : Manifest) (position : ℕ) : Result (Page R) := do
  let page ← queried (n.files.pages.lookup position)
  page.encode E S
  ensure (page.position = position ∧ page.manifestDigest = S.manifestDigest manifest)
    "snapshot staging binding mismatch"
  pure page

/-- A loop of `finish_snapshot` over the staged pages. -/
def eachPage {α : Type} (manifest : Manifest) (next : ℕ)
    (visit : α → R ⊕ List (OperationReceipt String) → Result α) : α → Result α :=
  (List.range next).foldlM fun acc position => do
    let page ← n.loadPage E S manifest position
    visit acc page.content

/-- The receipts so far, with their number and bytes. -/
def insertReceipt (manifest : Manifest) : ℕ × ℕ × List (OperationReceipt String) →
    OperationReceipt String → Result (ℕ × ℕ × List (OperationReceipt String))
  | (count, bytes, receipts), r => do
    let total := bytes + E.bytes (E.encode r)
    ensure (count + 1 ≤ manifest.checkpoint.sequence ∧ r.result.sequence = count + 1 ∧
      total ≤ manifest.receiptBytes) "invalid snapshot receipt prefix"
    Checked.ensure (∀ old ∈ receipts, old.result.operationId ≠ r.result.operationId ∧
      old.result.sequence ≠ r.result.sequence) Fault.constraintViolation
    pure (count + 1, total, Table.put (·.result.sequence) receipts r)

/-- The rows and receipts of the staged pages. -/
def install (manifest : Manifest) (next : ℕ) :
    Result (F × V × List (OperationReceipt String)) := do
  let scope := scope n.identity
  let begun ← S.beginRows scope manifest.data n.files.rest
  let staged ← n.eachPage E S manifest next (fun files content =>
    content.elim (S.receiveRows scope · files) fun _ => pure files) begun
  let format ← S.receiptFormat staged
  let upgraded ← if manifest.format = receiptFormatLedger ∧ format = 1 then S.installLedger staged
    else do
      ensure (format = manifest.format) "snapshot receipt capacity format mismatch"
      pure staged
  let (files, data) ← S.finishRows scope upgraded n.store.data
  let (count, bytes, receipts) ← n.eachPage E S manifest next (fun acc content =>
    content.elim (fun _ => pure acc) (·.foldlM (insertReceipt E manifest) acc))
    (0, 0, n.store.receipts)
  ensure (count = manifest.checkpoint.sequence ∧ bytes = manifest.receiptBytes)
    "snapshot receipt digest mismatch"
  let digest ← Store.receiptDigestFrom S.schema receipts count
  ensure (digest = manifest.checkpoint.receiptDigest) "snapshot receipt digest mismatch"
  pure (files, data, receipts)

/-- It answers the checkpoint of the manifest. -/
def finishSnapshotInstalling (manifest : Manifest) (retain : Option Bytes32) :
    Result (File F C V R) := do
  n.validateManifest E S.toHost manifest
  n.verifyOwner E S.toHost opened.transitionTrust
  match n.files.restored with
  | some done => do
    ensure (done = manifest ∧ n.store.base = some manifest.checkpoint) "completed snapshot mismatch"
    n.admission E S.toHost opened
    let _ ← n.store.current S.schema n.identity false
    pure n
  | none => do
    let (stored, next) ← n.restoreManifestIn E S
    ensure (stored = manifest ∧ next = manifest.pages) "snapshot incomplete"
    let (files, data, receipts) ← n.install E S manifest next
    Checked.ensure (n.store.base = none) Fault.constraintViolation
    let store := { n.store with
      data := data
      receipts := receipts
      base := some manifest.checkpoint
      generation := retain.getD random
      readiness := none }
    let (after, _) ← store.current S.schema n.identity true
    ensure (after = manifest.checkpoint) "restored snapshot checkpoint mismatch"
    pure { n with
      store := store
      files := { n.files with restore := none, restored := some manifest, rest := files } }

def cancelSnapshot (manifest : Manifest) : Result (File F C V R) := do
  n.validateManifest E S.toHost manifest
  ensure (n.role = .secondary) "snapshot cancellation requires secondary"
  S.noLossRecovery n.files
  n.verifyOwner E S.toHost opened.transitionTrust
  S.recoveryAdmission n
  n.requireIdle E
  ensure (n.files.restored = none ∧ n.store.base = none ∧ n.store.log = [] ∧
    n.store.receipts = [] ∧ S.schema.viewDigest n.store.data = S.initial)
    "cannot cancel installed or noninitial data"
  if n.files.restore = none then do
    ensure (n.files.pages = [] ∧ S.staged n.files.rest = false) "orphan snapshot staging"
    pure n
  else do
    let (stored, _) ← n.restoreManifestIn E S
    ensure (stored = manifest) "snapshot cancellation mismatch"
    pure { n with
      store := { n.store with readiness := none, generation := random }
      files := { n.files with restore := none, pages := [], rest := S.discard n.files.rest } }

end Node

end TerrapiVault.Maintenance
