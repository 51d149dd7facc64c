import TerrapiVault.Recovery.Token
import TerrapiVault.Replication.Store

/-! Compaction plans of a typed pair and the frozen publications they name. A typed
node prints its digests as hexadecimal text. -/
namespace TerrapiVault.Maintenance

open Replication (Result ensure Role)
open Recovery

structure SchemaId where
  name : String
  version : ℕ
deriving DecidableEq

abbrev Identity : Type := Replication.Identity SchemaId

abbrev Prefix : Type := Replication.Checkpoint SchemaId String

abbrev Head : Type := Replication.JournalHead SchemaId String

/-- The journal tables of a typed node, with its data and receipts. -/
abbrev Tables (C V : Type) : Type := Replication.Store C V SchemaId String

/-- `schema_contract::Contract`. -/
structure Contract where
  format : ℕ
  schema : SchemaId
  fingerprintVersion : ℕ
  catalogDigest : String
deriving DecidableEq

/-- 64 lower-case hexadecimal digits. -/
abbrev HexDigest (text : String) : Prop :=
  text.utf8ByteSize = 64 ∧ ∀ c ∈ text.toList, c.isDigit ∨ 'a' ≤ c ∧ c ≤ 'f'

/-- `sql_snapshot::Scope`. -/
structure Scope where
  cluster : String
  tenant : String
  epoch : ℕ
  schema : SchemaId
deriving DecidableEq

def Scope.validate (s : Scope) : Result Unit :=
  ensure (0 < s.epoch ∧ 0 < s.schema.version ∧ s.schema.name ≠ "" ∧
    s.schema.name.utf8ByteSize ≤ 128 ∧
    (∀ c ∈ s.schema.name.toList, c.isAlphanum ∨ c ∈ ['.', '_', '-']) ∧
    ∀ text ∈ [s.cluster, s.tenant], blank text = false ∧ text.utf8ByteSize ≤ 256)
    "invalid snapshot scope"

/-- `snapshot::scope`. -/
def scope (identity : Identity) : Scope :=
  ⟨identity.cluster, identity.tenant, identity.epoch, identity.schema⟩

def maxRows : ℕ := 100000

def maxBytes : ℕ := 256 * 1024 * 1024

def maxPages : ℕ := maxRows * 2

def receiptFormatLedger : ℕ := 2

def maxReceiptsV2 : ℕ := 1000000

/-- `sql_snapshot::Manifest`: the application rows. -/
structure DataManifest where
  format : ℕ
  scope : Scope
  catalogDigest : String
  stateDigest : String
  rows : ℕ
  bytes : ℕ
  contentDigest : String
deriving DecidableEq

def DataManifest.validate (m : DataManifest) : Result Unit := do
  m.scope.validate
  ensure (m.format = 1 ∧ m.rows ≤ maxRows ∧ m.bytes ≤ maxBytes ∧ (m.rows = 0 ↔ m.bytes = 0) ∧
    m.rows ≤ m.bytes ∧ ∀ digest ∈ [m.catalogDigest, m.stateDigest, m.contentDigest],
      HexDigest digest) "invalid SQL snapshot manifest"

/-- `snapshot::Manifest`: rows and receipts, frozen at one checkpoint. -/
structure Manifest where
  format : ℕ
  contract : Contract
  checkpoint : Prefix
  data : DataManifest
  pages : ℕ
  receiptBytes : ℕ
deriving DecidableEq

/-- What `typed::Node::plan_compaction` reports of one node. -/
structure CompactionPlan where
  format : ℕ
  role : Role
  contract : Contract
  membership : Option Id
  recoveryAnchor : Option Prefix
  head : Head
  checkpoint : Prefix
  coveredJournalBytes : ℕ
  coveredJournalEntries : ℕ
  unresolvedTail : Bool
  publication : Option Manifest
  retainedReceipts : ℕ
deriving DecidableEq

structure PairPlan where
  id : Id
  primary : CompactionPlan
  secondary : CompactionPlan
deriving DecidableEq

variable {T : Type → Type} (E : Env T)

def DataManifest.encode (m : DataManifest) : Result (T DataManifest) := do
  m.validate
  let text := E.encode m
  ensure (E.bytes text ≤ 4096) "SQL snapshot manifest exceeds wire limit"
  pure text

def Manifest.encode (m : Manifest) : Result (T Manifest) := do
  let _ ← m.data.encode E
  ensure (m.format ∈ [1, receiptFormatLedger] ∧ m.checkpoint.format = 1 ∧
    m.data.scope = scope m.checkpoint.identity ∧ m.data.stateDigest = m.checkpoint.viewDigest ∧
    m.pages ≤ maxPages ∧ m.receiptBytes ≤ maxBytes ∧
    m.checkpoint.sequence ≤ (if m.format = receiptFormatLedger then maxReceiptsV2 else maxRows) ∧
    (m.receiptBytes = 0 ↔ m.checkpoint.sequence = 0) ∧
    ∀ digest ∈ [m.checkpoint.viewDigest, m.checkpoint.journalDigest, m.checkpoint.receiptDigest],
      HexDigest digest) "invalid typed snapshot manifest"
  let text := E.encode m
  ensure (E.bytes text ≤ 8192) "typed snapshot manifest too large"
  pure text

namespace PairPlan

variable (plan : PairPlan)

/-- `PairPlan::local`. -/
def localPlan : Role → CompactionPlan
  | .primary => plan.primary
  | .secondary => plan.secondary

/-- The loop body of `validate_structural`. -/
def validatePublication (n : CompactionPlan) : Result Unit := do
  let m ← require n.publication "compaction requires frozen publication"
  let _ ← m.encode E
  ensure (m.checkpoint = n.checkpoint ∧ m.contract = n.contract ∧
    n.head.identity = n.checkpoint.identity ∧ n.head.length = n.checkpoint.sequence ∧
    n.retainedReceipts = n.checkpoint.sequence ∧
    ∀ b ∈ n.head.base, b.sequence < n.checkpoint.sequence) "compaction publication/base mismatch"

def validateStructural : Result Unit := do
  let p := plan.primary
  let s := plan.secondary
  ensure (plan.id ≠ zeroId ∧ p.role = .primary ∧ s.role = .secondary ∧ p.format = 1 ∧
    s.format = 1 ∧ p.contract = s.contract ∧ p.checkpoint = s.checkpoint ∧
    p.membership = s.membership ∧ p.recoveryAnchor = s.recoveryAnchor ∧
    p.membership.isSome = p.recoveryAnchor.isSome ∧ p.unresolvedTail = false ∧
    s.unresolvedTail = false ∧ 0 < p.checkpoint.sequence) "invalid pair compaction plan"
  validatePublication E p
  validatePublication E s

def validate : Result Unit := do
  plan.validateStructural E
  ensure (plan.primary.membership = none ∧ plan.secondary.membership = none ∧
    plan.primary.recoveryAnchor = none ∧ plan.secondary.recoveryAnchor = none)
    "compaction of recovered membership is not supported"

def validateCertified : Result Unit := do
  plan.validateStructural E
  ensure (plan.primary.membership.isSome ∧ plan.primary.recoveryAnchor.isSome ∧
    plan.secondary.membership.isSome ∧ plan.secondary.recoveryAnchor.isSome)
    "certified compaction requires recovered membership"

end PairPlan

end TerrapiVault.Maintenance
