import TerrapiVault.Recovery.Journal

/-! The loss tables of a journal, the writers of all tables, and the calls on ordinary
transitions. A call is one transaction: it returns the journal it leaves behind, or fails and
leaves everything as it was. The effective loss is the last row of the superseding chain, else
the singleton. -/
namespace TerrapiVault.Recovery

open Replication (Result ensure)

variable {T : Type → Type}

def Env.decodeLossRow (E : Env T) (text : T LossRecord) (digest : Id) (trust : Trust) :
    Result LossRecord := do
  let r ← E.load text digest "loss record integrity" "loss record integrity"
  E.verifyLoss r trust "loss certificate mismatch"
  pure r

/-- The rows of the chain after `previous`: each names the row it replaces. -/
def Env.followChain (E : Env T) (trust : Trust) :
    LossRecord → List (Row T LossRecord) → Result (List LossRecord)
  | _, [] => pure []
  | previous, row :: rows => do
    let record ← E.decodeLossRow row.record row.digest trust
    ensure (row.revision = record.request.revision) "loss chain revision mismatch"
    let s ← require record.request.supersedes "loss chain row does not supersede"
    let next ← checkedSucc previous.request.revision "loss revision overflow"
    ensure (s.lossCertificate = previous.certificateId ∧
      s.lossTokenDigest = E.tokenDigest previous.token ∧ record.request.revision = next)
      "loss chain link mismatch"
    let rest ← followChain E trust record rows
    pure (record :: rest)

/-- The last row and the row count recorded beside the chain. -/
def checkChainHead (head : Option (ℕ × ℕ)) (history : List LossRecord) : Result Unit :=
  match head with
  | none => ensure (history.length = 1) "loss chain head missing"
  | some (revision, rows) =>
    ensure (rows + 1 = history.length ∧ ∃ r ∈ history.getLast?, r.request.revision = revision)
      "loss chain truncated"

namespace Journal

variable (E : Env T) (j : Journal T)

def readChainHead : Option (ℕ × ℕ) := j.lossHead.join

def readLossHistory (trust : Trust) : Result (List LossRecord) :=
  match j.loss with
  | none => do
    ensure (j.readChainHead = none) "loss chain truncated"
    pure []
  | some none => pure []
  | some (some cell) => do
    let first ← E.decodeLossRow cell.record cell.digest trust
    ensure (first.request.supersedes = none) "loss chain root supersedes"
    match j.lossChain with
    | none => do
      ensure (j.readChainHead = none) "loss chain truncated"
      pure [first]
    | some rows => do
      ensure (rows.length ≤ maxChainRows) "loss chain row limit"
      ensure (∀ row ∈ rows, E.characters row.record ≤ maxRecord) "loss record limit"
      ensure (rows = [] ∨ j.readChainHead ≠ none) "loss chain head missing"
      let rest ← E.followChain trust first rows
      checkChainHead j.readChainHead (first :: rest)
      pure (first :: rest)

def readRecord (trust : Trust) : Result (Option LossRecord) := do
  let history ← j.readLossHistory E trust
  pure history.getLast?

def lossRecordExists (trust : Trust) : Result Bool :=
  match j.loss with
  | none => pure false
  | some _ => do
    let record ← j.readRecord E trust
    pure record.isSome

def readSuccessor (trust : Trust) : Result (Option LossSuccessorRecord) :=
  match j.successor.join with
  | none => pure none
  | some cell => do
    let r ← E.load cell.record cell.digest "replacement record integrity"
      "replacement record integrity"
    let certificate ← E.verifySuccessorHistorical r.token trust r.request
    ensure (certificate = r.certificateId) "replacement certificate mismatch"
    ensure (∀ id ∈ r.completion, id ≠ zeroId ∧ r.acknowledgements = both true)
      "invalid replacement completion"
    pure (some r)

def readSuccessorAbort (trust : Trust) : Result (Option SuccessorAbortRecord) :=
  match j.successorAbort.join with
  | none => pure none
  | some cell => do
    ensure (E.characters cell.record ≤ maxRecord) "loss successor abort integrity"
    let r ← E.load cell.record cell.digest "loss successor abort integrity"
      "loss successor abort integrity"
    ensure (r.format = 2) "loss successor abort format"
    let certificate ← E.verifySuccessorAbortHistorical r.token trust r.abort
    ensure (certificate = r.certificateId) "loss successor abort certificate mismatch"
    pure (some r)

end Journal

/-- `INSERT` with the revision as primary key. -/
def insertRow {α : Type} (rows : List (Row T α)) (row : Row T α) : Result (List (Row T α)) :=
  if ∃ r ∈ rows, r.revision = row.revision then throw .constraintViolation
  else pure (Table.put Row.revision rows row)

/-- `INSERT` of the row with `id = 1`. -/
def insertCell {α : Type} (table : Option (Option (Cell T α))) (cell : Cell T α) :
    Result (Option (Option (Cell T α))) :=
  if table.join.isSome then throw .constraintViolation else pure (some (some cell))

namespace Journal

variable (E : Env T) (j : Journal T)

def save (r : Record) : Result (Journal T) := do
  ensure (E.bytes (E.encode r) ≤ maxRecord) "transition record limit"
  let rows ← insertRow j.history (E.row r.request.revision r)
  pure { j with history := rows, head := r.request.revision }

def replace (r : Record) : Result (Journal T) := do
  ensure (E.bytes (E.encode r) ≤ maxRecord) "transition record limit"
  ensure (∃ row ∈ j.history, row.revision = r.request.revision) "transition update failed"
  pure { j with
    history := j.history.map fun row =>
      if row.revision = r.request.revision then E.row r.request.revision r else row }

def saveAbort (r : AbortRecord) : Result (Journal T) := do
  ensure (E.bytes (E.encode r) ≤ maxRecord) "transition abort record limit"
  let marked ← j.markJournalFormatTwo E
  let rows ← insertRow (j.aborts.getD []) (E.row r.abort.abortedRevision r)
  pure { marked with aborts := some rows }

def saveRecord (r : LossRecord) : Result (Journal T) := do
  ensure (E.bytes (E.encode r) ≤ maxRecord) "loss record limit"
  let loss ← insertCell j.loss (E.cell r)
  pure { j with loss := loss }

def saveChainRecord (r : LossRecord) : Result (Journal T) := do
  ensure (E.bytes (E.encode r) ≤ maxRecord) "loss record limit"
  let marked ← j.markJournalFormatTwo E
  let rows ← insertRow (j.lossChain.getD []) (E.row r.request.revision r)
  pure { marked with
    lossChain := some rows, lossHead := some (some (r.request.revision, rows.length)) }

def saveSuccessor (r : LossSuccessorRecord) : Result (Journal T) := do
  let successor ← insertCell j.successor (E.cell r)
  pure { j with successor := successor }

def saveSuccessorReplace (r : LossSuccessorRecord) : Result (Journal T) := do
  ensure (j.successor.join.isSome) "replacement update failed"
  pure { j with successor := some (some (E.cell r)) }

def saveSuccessorAbort (r : SuccessorAbortRecord) : Result (Journal T) := do
  ensure (E.bytes (E.encode r) ≤ maxRecord) "loss successor abort limit"
  let marked ← j.markJournalFormatTwo E
  let successorAbort ← insertCell j.successorAbort (E.cell r)
  pure { marked with successorAbort := successorAbort }

end Journal

/-! The calls on ordinary transitions. -/

structure CommittedTransition where
  request : Request
  token : String
  tokenDigest : Id
  certificateId : Id
  acknowledgements : Fin 2 → Bool
  completion : Option Id
deriving DecidableEq

/-- The only transition value that reopens write eligibility. -/
structure CompletedTransition where
  committed : CommittedTransition
  completion : Id

/-- Inspection evidence for a completed revision; a separate type from the above. -/
structure HistoricalCompletedTransition where
  request : Request
  token : String
  tokenDigest : Id
  certificateId : Id
  completion : Id

structure CommittedMaintenanceAbort where
  abort : MaintenanceAbort
  token : String
  tokenDigest : Id
  certificateId : Id

/-- The live hooks. `continuity` may be asked more than once in one call and may
change its answer; the number tells the asks apart. -/
structure Policy where
  continuity : ℕ → JournalScope → Request → Result Unit
  prepared : JournalScope → Request → Participant → Result Unit
  applied : JournalScope → CommittedTransition → Participant → Result Unit
  historicalCompletion : JournalScope → Request → Request → Result Unit
  abortApplicable : JournalScope → MaintenanceAbort → Result Unit

/-- Every hook says yes. -/
def permissive : Policy where
  continuity _ _ _ := .ok ()
  prepared _ _ _ := .ok ()
  applied _ _ _ := .ok ()
  historicalCompletion _ _ _ := .ok ()
  abortApplicable _ _ := .ok ()

def Policy.continuityOf (policy : Policy) (ask : ℕ) (scope : JournalScope) :
    Option Record → Result Unit
  | none => pure ()
  | some r => policy.continuity ask scope r.request

/-- `iter().position`. -/
def position (participants : Fin 2 → Participant) (p : Participant → Bool) : Option (Fin 2) :=
  if p (participants 0) then some 0 else if p (participants 1) then some 1 else none

variable {T : Type → Type} (E : Env T)

def Env.committed (r : Record) (trust : Trust) : Result CommittedTransition := do
  let v ← E.verifyHistorical r.token trust r.request
  pure ⟨r.request, r.token, v.tokenDigest, v.certificateId, r.acknowledgements, r.completion⟩

def Env.committedAbort (r : AbortRecord) (trust : Trust) : Result CommittedMaintenanceAbort := do
  let certificate ← E.verifyAbortHistorical r.token trust r.abort
  ensure (certificate = r.certificateId) "transition abort certificate mismatch"
  pure ⟨r.abort, r.token, E.tokenDigest r.token, certificate⟩

namespace Journal

def create (scope : JournalScope) : Result (Journal T) := do
  scope.validate
  pure {
    scope := scope
    stored := E.encode ⟨scope, none⟩
    head := scope.initialRevision - 1 }

variable (j : Journal T)

/-- The branch of `decide` for a request that is not the effective head. -/
def decideNew (old : History) (request : Request) (token : String) (now : ℕ) (trust : Trust)
    (policy : Policy) : Result (Journal T × CommittedTransition) := do
  ensure (old.abortAt request.revision = none) "transition revision aborted"
  ensure (request.id ∉ old.ids ∧ ∀ a ∈ old.aborts, a.abort.abortedRequestId ≠ request.id)
    "duplicate transition request id"
  let r : Record := ⟨request, token, both false, none⟩
  j.scope.chain old.head old.consumed r
  let verified ← E.verifyIssuance token trust request now
  policy.prepared j.scope request (request.participants 0)
  policy.prepared j.scope request (request.participants 1)
  policy.continuity 1 j.scope request
  let next ← j.save E r
  pure (next, ⟨request, token, verified.tokenDigest, verified.certificateId, both false, none⟩)

def decide (request : Request) (token : String) (now : ℕ) (trust : Trust) (policy : Policy) :
    Result (Journal T × CommittedTransition) := do
  request.validate
  ensure (token.utf8ByteSize ≤ maxToken) "token limit"
  let old ← j.read E trust
  let lost ← j.lossRecordExists E trust
  ensure (lost = false) "transition superseded by participant loss"
  ensure (old.head.isSome ∨ j.successorParentExists = false)
    "replacement transition requires loss sequencing"
  policy.continuity 0 j.scope request
  match old.head.filter fun r => r.request = request with
  | some r => do
    ensure (r.token = token) "immutable transition conflict"
    let committed ← E.committed r trust
    pure (j, committed)
  | none => j.decideNew E old request token now trust policy

def fetch (request : Request) (trust : Trust) (policy : Policy) : Result CommittedTransition := do
  let history ← j.read E trust
  let lost ← j.lossRecordExists E trust
  ensure (lost = false) "transition superseded by participant loss"
  let r ← require history.head "transition missing"
  ensure (r.request = request) "transition unavailable"
  policy.continuity 0 j.scope request
  E.committed r trust

def fetchCompleted (request : Request) (trust : Trust) (policy : Policy) :
    Result CompletedTransition := do
  let committed ← j.fetch E request trust policy
  ensure (committed.acknowledgements = both true) "transition acknowledgements incomplete"
  let completion ← require committed.completion "transition completion missing"
  pure ⟨committed, completion⟩

def fetchCompletedRevision (request : Request) (trust : Trust) (policy : Policy) :
    Result HistoricalCompletedTransition := do
  request.validate
  let (history, selected) ← j.readWithRevision E trust (some request.revision)
  ensure (history.abortAt request.revision = none) "transition revision aborted"
  let head ← require history.head "transition missing"
  let record ← require selected "transition revision unavailable"
  ensure (record.request = request) "transition request mismatch"
  ensure (record.acknowledgements = both true) "transition acknowledgements incomplete"
  let completion ← require record.completion "transition completion missing"
  policy.continuity 0 j.scope head.request
  policy.historicalCompletion j.scope record.request head.request
  let verified ← E.verifyHistorical record.token trust record.request
  pure ⟨record.request, record.token, verified.tokenDigest, verified.certificateId, completion⟩

def acknowledge (decision : CommittedTransition) (member : Participant) (trust : Trust)
    (policy : Policy) : Result (Journal T) := do
  let history ← j.read E trust
  ensure (history.abortAt decision.request.revision = none) "transition revision aborted"
  let r ← require history.head "transition missing"
  let lost ← j.lossRecordExists E trust
  ensure (lost = false) "transition superseded by participant loss"
  ensure (r.request = decision.request) "transition handle is not current"
  let current ← E.committed r trust
  ensure (current.tokenDigest = decision.tokenDigest) "transition handle is not current"
  policy.continuity 0 j.scope r.request
  let index ← require (position r.request.participants (· = member)) "transition member mismatch"
  if r.acknowledgements index then pure j
  else do
    policy.applied j.scope decision member
    policy.continuity 1 j.scope r.request
    j.replace E { r with acknowledgements := Function.update r.acknowledgements index true }

def complete (decision : CommittedTransition) (id : Id) (trust : Trust) (policy : Policy) :
    Result (Journal T) := do
  ensure (id ≠ zeroId) "zero transition completion"
  let history ← j.read E trust
  ensure (history.abortAt decision.request.revision = none) "transition revision aborted"
  let r ← require history.head "transition missing"
  let lost ← j.lossRecordExists E trust
  ensure (lost = false) "transition superseded by participant loss"
  ensure (r.request = decision.request) "transition completion evidence missing"
  let current ← E.committed r trust
  ensure (current.tokenDigest = decision.tokenDigest ∧ r.acknowledgements = both true)
    "transition completion evidence missing"
  policy.continuity 0 j.scope r.request
  match r.completion with
  | some old => do
    ensure (old = id) "immutable transition completion conflict"
    pure j
  | none => j.replace E { r with completion := some id }

/-- The two admissible shapes of a first-time abort. -/
def abortTarget (history : History) (abort : MaintenanceAbort) : Result Unit :=
  match history.head.filter fun r => r.request.revision = abort.abortedRevision with
  | some record => E.decidedAbort abort record
  | none => do
    let next ← checkedSucc history.lastRevision "transition revision overflow"
    ensure (abort.decided = false ∧ abort.abortedRevision = next)
      "maintenance abort target mismatch"
    ensure (∀ r ∈ history.head, r.completion.isSome) "decided transition must be aborted first"

/-- The branch of `abort` for a revision without a recorded abort. -/
def abortNew (history : History) (abort : MaintenanceAbort) (token : String) (now : ℕ)
    (trust : Trust) (policy : Policy) : Result (Journal T × CommittedMaintenanceAbort) := do
  abortTarget E history abort
  ensure (history.aborts.length < maxAbortRows) "transition abort row limit"
  policy.abortApplicable j.scope abort
  let certificate ← E.verifyAbortIssuance token trust abort now
  policy.continuityOf 1 j.scope history.head
  let record : AbortRecord := ⟨2, abort, token, certificate⟩
  let saved ← j.saveAbort E record
  let committed ← E.committedAbort record trust
  pure ({ saved with head := max history.lastRevision abort.abortedRevision }, committed)

def abort (abort : MaintenanceAbort) (token : String) (now : ℕ) (trust : Trust)
    (policy : Policy) : Result (Journal T × CommittedMaintenanceAbort) := do
  abort.validate
  ensure (token.utf8ByteSize ≤ maxToken) "token limit"
  let history ← j.read E trust
  ensure (j.successorParentExists = false)
    "maintenance abort is not available in a successor journal"
  let lost ← j.lossRecordExists E trust
  ensure (lost = false) "maintenance abort superseded by participant loss"
  ensure (j.scope.BindsAbort abort) "maintenance abort scope binding"
  policy.continuityOf 0 j.scope history.head
  match history.abortAt abort.abortedRevision with
  | some existing => do
    ensure (existing.abort = abort ∧ existing.token = token)
      "immutable maintenance abort conflict"
    policy.continuityOf 1 j.scope history.head
    let committed ← E.committedAbort existing trust
    pure (j, committed)
  | none => j.abortNew E history abort token now trust policy

def fetchAbort (abortedRequest : Request) (trust : Trust) (policy : Policy) :
    Result CommittedMaintenanceAbort := do
  let digest ← E.documentDigest .transition abortedRequest
  let history ← j.read E trust
  let record ← require (history.aborts.find? fun r =>
    r.abort.abortedRequest = digest ∧ r.abort.abortedRequestId = abortedRequest.id)
    "maintenance abort missing"
  policy.continuityOf 0 j.scope history.head
  E.committedAbort record trust

end Journal

end TerrapiVault.Recovery
