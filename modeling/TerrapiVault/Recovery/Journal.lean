import TerrapiVault.Recovery.Token
import TerrapiVault.Lib.Table

/-! The transition journal file. Every record is stored as JSON text beside its
SHA-256; the tables that older binaries do not know are created on first use, so
`none` is a table that does not exist. The readers re-check everything they load. -/
namespace TerrapiVault.Recovery

open Replication (Result ensure)

/-- `[b; 2]`. -/
def both (b : Bool) : Fin 2 → Bool := fun _ => b

structure Record where
  request : Request
  token : String
  acknowledgements : Fin 2 → Bool
  completion : Option Id
deriving DecidableEq

structure AbortRecord where
  format : ℕ
  abort : MaintenanceAbort
  token : String
  certificateId : Id
deriving DecidableEq

structure LossRecord where
  request : LossRequest
  token : String
  certificateId : Id
deriving DecidableEq

structure SuccessorAbortRecord where
  format : ℕ
  abort : LossSuccessorAbort
  token : String
  certificateId : Id

structure LossSuccessorRecord where
  request : LossSuccessorRequest
  token : String
  certificateId : Id
  acknowledgements : Fin 2 → Bool
  completion : Option Id
deriving DecidableEq

/-- Every member, generation and membership a lineage has burnt. -/
structure Retired where
  members : List Id
  generations : List Id
  memberships : List Id
deriving DecidableEq

namespace Retired

def empty : Retired := ⟨[], [], []⟩

def push (r : Retired) (member generation membership : Id) : Retired where
  members := if member ∈ r.members then r.members else r.members ++ [member]
  generations := if generation ∈ r.generations then r.generations else r.generations ++ [generation]
  memberships := if membership ∈ r.memberships then r.memberships else r.memberships ++ [membership]

abbrev Contains (r : Retired) (member generation membership : Id) : Prop :=
  member ∈ r.members ∨ generation ∈ r.generations ∨ membership ∈ r.memberships

end Retired

structure SuccessorParent where
  sourceScope : JournalScope
  loss : LossRecord
  retired : Retired
deriving DecidableEq

/-- The scope row; `marker` is the one-way `journal_format` member. -/
structure StoredScope where
  scope : JournalScope
  marker : Option ℕ

/-- The row with `id = 1`. -/
structure Cell (T : Type → Type) (α : Type) where
  record : T α
  digest : Id

structure Row (T : Type → Type) (α : Type) where
  revision : ℕ
  record : T α
  digest : Id

structure Journal (T : Type → Type) where
  scope : JournalScope
  stored : T StoredScope
  head : ℕ
  history : List (Row T Record) := []
  aborts : Option (List (Row T AbortRecord)) := none
  loss : Option (Option (Cell T LossRecord)) := none
  lossChain : Option (List (Row T LossRecord)) := none
  lossHead : Option (Option (ℕ × ℕ)) := none
  parent : Option (Option (Cell T SuccessorParent)) := none
  successor : Option (Option (Cell T LossSuccessorRecord)) := none
  successorAbort : Option (Option (Cell T SuccessorAbortRecord)) := none

def maxRecord : ℕ := 256 * 1024

def maxAbortRows : ℕ := 4096

def maxChainRows : ℕ := 4096

def maxScope : ℕ := 64 * 1024

def journalFormatTwo : ℕ := 2

abbrev JournalScope.BindsRequest (s : JournalScope) (q : Request) : Prop :=
  q.install = s.install ∧ q.region = s.region ∧ q.scope = s.scope ∧ q.schema = s.schema ∧
    q.membership = s.membership ∧ q.sourceAnchor = s.sourceAnchor ∧ q.authorityId = s.authorityId

abbrev JournalScope.BindsAbort (s : JournalScope) (a : MaintenanceAbort) : Prop :=
  a.install = s.install ∧ a.region = s.region ∧ a.scope = s.scope ∧ a.schema = s.schema ∧
    a.membership = s.membership ∧ a.sourceAnchor = s.sourceAnchor ∧ a.authorityId = s.authorityId

namespace Env

variable {T : Type → Type} (E : Env T)

def cell {α : Type} (value : α) : Cell T α := ⟨E.encode value, E.digest value⟩

def row {α : Type} (revision : ℕ) (value : α) : Row T α :=
  ⟨revision, E.encode value, E.digest value⟩

def parse {α : Type} (text : T α) : Result α := require (E.decode text) "invalid JSON"

/-- Length, then digest, then decoding. -/
def load {α : Type} (text : T α) (digest : Id) (limit integrity : String) : Result α := do
  ensure (E.bytes text ≤ maxRecord) limit
  ensure (digest = E.sha256 text) integrity
  E.parse text

def verifyLoss (r : LossRecord) (trust : Trust) (text : String) : Result Unit := do
  let certificate ← E.verifyLossHistorical r.token trust r.request
  ensure (certificate = r.certificateId) text

end Env

namespace Journal

variable {T : Type → Type} (E : Env T) (j : Journal T)

def readScope : Result (JournalScope × ℕ) := do
  ensure (E.bytes j.stored ≤ maxScope) "transition scope limit"
  let stored ← E.parse j.stored
  match stored.marker with
  | none => pure (stored.scope, 1)
  | some marker => do
    ensure (marker = journalFormatTwo) "transition journal format"
    pure (stored.scope, marker)

/-- State that an older binary cannot see. -/
def formatTwoState : Bool :=
  (j.aborts.any fun rows => rows ≠ []) || (j.lossChain.any fun rows => rows ≠ []) ||
    j.successorAbort.any fun row => row.isSome

def ensureJournalFormat : Result Unit := do
  let (stored, format) ← j.readScope E
  ensure (stored = j.scope) "transition journal scope mismatch"
  ensure (format = journalFormatTwo ∨ j.formatTwoState = false)
    "format-2 journal state without format marker"

def markJournalFormatTwo : Result (Journal T) := do
  ensure (E.bytes j.stored ≤ maxScope) "transition scope limit"
  let stored ← E.parse j.stored
  if stored.marker.isSome then pure j
  else
    let text := E.encode { stored with marker := some journalFormatTwo }
    ensure (E.bytes text ≤ maxScope) "transition scope limit"
    pure { j with stored := text }

def readParent (trust : Trust) : Result (Option SuccessorParent) :=
  match j.parent with
  | none => pure none
  | some none => throw (.message "loss parent missing")
  | some (some cell) => do
    let record ← E.load cell.record cell.digest "loss parent integrity" "loss parent integrity"
    E.verifyLoss record.loss trust "loss parent certificate mismatch"
    ensure (j.scope.membership = record.loss.request.replacementMembership)
      "loss parent membership mismatch"
    pure (some record)

def successorParentExists : Bool := j.parent.isSome

def checkParent (trust : Trust) (parent : SuccessorParent) : Result Unit := do
  let loss := parent.loss.request
  let source := parent.sourceScope
  let next ← checkedSucc loss.revision "replacement revision overflow"
  ensure ((source.profile = trust.profile ∧ source.install = loss.install ∧
      source.region = loss.region ∧ source.scope = loss.scope ∧ source.schema = loss.schema ∧
      source.membership = loss.membership ∧ source.authorityId = loss.authorityId) ∧
    j.scope.profile = source.profile ∧ j.scope.install = loss.install ∧
      j.scope.region = loss.region ∧ j.scope.scope = loss.scope ∧ j.scope.schema = loss.schema ∧
      j.scope.membership = loss.replacementMembership ∧ j.scope.sourceAnchor = loss.sourceCut ∧
      j.scope.authorityId = loss.authorityId ∧ j.scope.initialRevision = next)
    "loss parent scope mismatch"

def validateSuccessorParent (trust : Trust) : Result Unit := do
  match ← j.readParent E trust with
  | none => pure ()
  | some parent => j.checkParent trust parent

/-- One row of `read_aborts`. -/
def loadAbort (trust : Trust) (row : Row T AbortRecord) : Result AbortRecord := do
  let record ← E.load row.record row.digest "transition abort record limit"
    "transition abort record integrity"
  ensure (record.format = 2) "transition abort record format"
  record.abort.validate
  ensure (row.revision = record.abort.abortedRevision) "transition abort revision mismatch"
  ensure (j.scope.BindsAbort record.abort) "maintenance abort scope binding"
  let certificate ← E.verifyAbortHistorical record.token trust record.abort
  ensure (certificate = record.certificateId) "transition abort certificate mismatch"
  pure record

def collectAborts (trust : Trust) :
    List AbortRecord → List (Row T AbortRecord) → Result (List AbortRecord)
  | seen, [] => pure seen
  | seen, row :: rows => do
    let record ← j.loadAbort E trust row
    ensure (∀ r ∈ seen, r.abort.id ≠ record.abort.id ∧
      r.abort.abortedRequestId ≠ record.abort.abortedRequestId) "duplicate maintenance abort"
    ensure (∀ r ∈ seen, r.abort.abortedRevision ≠ row.revision) "duplicate maintenance abort"
    collectAborts trust (seen ++ [record]) rows

def readAborts (trust : Trust) : Result (List AbortRecord) :=
  match j.aborts with
  | none => pure []
  | some rows => do
    ensure (rows.length ≤ maxAbortRows) "transition abort row limit"
    ensure (∀ row ∈ rows, E.characters row.record ≤ maxRecord) "transition abort record limit"
    j.collectAborts E trust [] rows

end Journal

/-- The revision after the last consumed one. -/
def JournalScope.expected (s : JournalScope) : Option ℕ → Result ℕ
  | some r => checkedSucc r "transition revision overflow"
  | none => pure s.initialRevision

/-- An abort without a history row takes the next free revision and never steps
over an open decision. -/
def JournalScope.undecidedAbort (s : JournalScope) (record : AbortRecord) (consumed : Option ℕ)
    (effective : Option Record) : Result Unit := do
  let expected ← s.expected consumed
  ensure (record.abort.decided = false ∧ record.abort.abortedRevision = expected)
    "transition abort sequencing"
  ensure (∀ r ∈ effective, r.completion.isSome) "decided transition must be aborted first"

/-- Revisions follow the counter, the data lineage follows the effective head. -/
def JournalScope.chain (s : JournalScope) (effective : Option Record) (previous : Option ℕ)
    (r : Record) : Result Unit := do
  let q := r.request
  ensure (s.BindsRequest q) "transition scope binding"
  let expected ← s.expected previous
  match effective with
  | some p => do
    ensure (p.completion.isSome ∧ q.revision = expected ∧
      ∀ i, (q.participants i).oldBase = some (p.request.participants 0).target)
      "transition chain mismatch"
    ensure (q.id ≠ p.request.id ∧
      ∀ i, (q.participants i).member = (p.request.participants i).member ∧
        (q.participants i).generation = (p.request.participants i).generation)
      "transition membership history mismatch"
  | none => ensure (q.revision = expected) "initial transition revision mismatch"

structure History where
  head : Option Record
  completed : Option Record
  ids : List Id
  aborts : List AbortRecord
  consumed : Option ℕ
  lastRevision : ℕ

def History.abortAt (h : History) (revision : ℕ) : Option AbortRecord :=
  h.aborts.find? fun r => r.abort.abortedRevision = revision

/-- How far the loop of `read_with_revision` has come: the last record no abort
took, the last one of these that completed, the last revision used. -/
structure Position where
  effective : Option Record
  completed : Option Record
  consumed : Option ℕ
  ids : List Id

def Position.start : Position := ⟨none, none, none, []⟩

/-- The loop's other variables: the record asked for and the aborts still to come. -/
structure Walk extends Position where
  selected : Option Record
  pending : List AbortRecord

namespace Walk

def start (aborts : List AbortRecord) : Walk := ⟨Position.start, none, aborts⟩

/-- Pass the never-decided aborts at the front of `pending` that satisfy `passes`. -/
def settle (s : JournalScope) (passes : ℕ → Bool) (w : Walk) : List AbortRecord → Result Walk
  | [] => pure { w with pending := [] }
  | a :: rest =>
    if passes a.abort.abortedRevision then do
      s.undecidedAbort a w.consumed w.effective
      settle s passes { w with consumed := some a.abort.abortedRevision } rest
    else pure { w with pending := a :: rest }

def accept (w : Walk) (record : Record) : Walk :=
  { w with
    effective := some record
    completed := if record.completion.isSome then some record else w.completed }

end Walk

namespace Env

variable {T : Type → Type} (E : Env T)

/-- The abort names the decided but unfinished record it cancels. -/
def decidedAbort (a : MaintenanceAbort) (record : Record) : Result Unit := do
  ensure (a.decided = true ∧ record.completion = none ∧ record.acknowledgements ≠ both true ∧
    a.abortedRevision = record.request.revision ∧ a.abortedRequestId = record.request.id)
    "maintenance abort target mismatch"
  let digest ← E.documentDigest .transition record.request
  ensure (a.abortedRequest = digest) "maintenance abort target mismatch"

def loadRecord (trust : Trust) (row : Row T Record) : Result Record := do
  let record ← E.load row.record row.digest "transition record limit"
    "transition record integrity"
  ensure (∀ id ∈ record.completion, id ≠ zeroId ∧ record.acknowledgements = both true)
    "invalid transition completion"
  ensure (row.revision = record.request.revision) "transition revision mismatch"
  let _ ← E.verifyHistorical record.token trust record.request
  pure record

/-- One history row of the loop. -/
def readRow (s : JournalScope) (trust : Trust) (revision : Option ℕ) (w : Walk)
    (row : Row T Record) : Result Walk := do
  let w ← w.settle s (fun a => a < row.revision) w.pending
  let record ← E.loadRecord trust row
  ensure (record.request.id ∉ w.ids) "duplicate transition request id"
  s.chain w.effective w.consumed record
  let w := { w with
    ids := w.ids ++ [record.request.id]
    selected := if revision = some record.request.revision then some record else w.selected
    consumed := some row.revision }
  match w.pending with
  | [] => pure (w.accept record)
  | a :: rest =>
    if a.abort.abortedRevision = row.revision then do
      E.decidedAbort a.abort record
      pure { w with pending := rest }
    else pure (w.accept record)

end Env

namespace Journal

variable {T : Type → Type} (E : Env T) (j : Journal T)

def readWithRevision (trust : Trust) (revision : Option ℕ) :
    Result (History × Option Record) := do
  ensure (trust.profile = j.scope.profile) "transition trust profile mismatch"
  j.validateSuccessorParent E trust
  j.ensureJournalFormat E
  let aborts ← j.readAborts E trust
  let w ← j.history.foldlM (E.readRow j.scope trust revision) (Walk.start aborts)
  let w ← w.settle j.scope (fun _ => true) w.pending
  let lastRevision := w.consumed.getD (j.scope.initialRevision - 1)
  ensure (j.head = lastRevision) "transition head mismatch"
  pure (⟨w.effective, w.completed, w.ids, aborts, w.consumed, lastRevision⟩, w.selected)

def read (trust : Trust) : Result History := do
  let (history, _) ← j.readWithRevision E trust none
  pure history

end Journal

end TerrapiVault.Recovery
