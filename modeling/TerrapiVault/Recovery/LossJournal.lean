import TerrapiVault.Recovery.Transitions

/-! Participant losses. A loss closes the journal it is recorded in; the successor
journal it founds carries the loss as its parent together with every identity the
lineage has retired. -/
namespace TerrapiVault.Recovery

open Replication (Result ensure)

structure CommittedLoss where
  request : LossRequest
  token : String
  certificateId : Id
  tokenDigest : Id

structure CommittedLossSuccessorTransition where
  request : LossSuccessorRequest
  token : String
  tokenDigest : Id
  certificateId : Id
  sourceScope : JournalScope
  lossRequest : LossRequest
  lossTokenDigest : Id
  lossCertificateId : Id
  acknowledgements : Fin 2 → Bool

structure CompletedLossSuccessorTransition where
  request : LossSuccessorRequest
  tokenDigest : Id
  certificateId : Id
  completion : Id

structure CommittedLossSuccessorAbort where
  abort : LossSuccessorAbort
  token : String
  tokenDigest : Id
  certificateId : Id

/-- The live hooks of a loss; asks are numbered as in `Policy`. -/
structure LossPolicy where
  continuityAndFencing : ℕ → JournalScope → LossRequest → Result Unit
  survivorPrepared : JournalScope → LossRequest → Result Unit
  maintenanceRollbackAuthorized : JournalScope → LossRequest → Id → Result Unit
  maintenanceFinishForwardAuthorized : JournalScope → LossRequest → Id → Result Unit
  lossSuccessorApplied :
    JournalScope → LossRequest → LossSuccessorRequest → Participant → Result Unit
  lossSuccessorContinuity : ℕ → JournalScope → LossSuccessorRequest → Result Unit
  successorAbortAuthorized :
    JournalScope → LossRequest → LossSuccessorRequest → LossSuccessorAbort → Result Unit
  supersededSuccessorAborted : JournalScope → LossRequest → Supersedes → Result Unit

/-- The hook a loss that abandons an in-flight request asks, by its kind. -/
def LossPolicy.maintenanceAuthorized (policy : LossPolicy) (scope : JournalScope)
    (request : LossRequest) : Result Unit :=
  match request.kind, request.abandonedRequest with
  | .completed, some abandoned => policy.maintenanceRollbackAuthorized scope request abandoned
  | .decided, some abandoned => policy.maintenanceFinishForwardAuthorized scope request abandoned
  | _, _ => pure ()

variable {T : Type → Type} (E : Env T)

def Env.committedLoss (r : LossRecord) (trust : Trust) : Result CommittedLoss := do
  let certificate ← E.verifyLossHistorical r.token trust r.request
  pure ⟨r.request, r.token, certificate, E.tokenDigest r.token⟩

def Env.committedSuccessor (r : LossSuccessorRecord) (parent : SuccessorParent) :
    CommittedLossSuccessorTransition :=
  ⟨r.request, r.token, E.tokenDigest r.token, r.certificateId, parent.sourceScope,
    parent.loss.request, E.tokenDigest parent.loss.token, parent.loss.certificateId,
    r.acknowledgements⟩

def Env.committedSuccessorAbort (r : SuccessorAbortRecord) (trust : Trust) :
    Result CommittedLossSuccessorAbort := do
  let certificate ← E.verifySuccessorAbortHistorical r.token trust r.abort
  ensure (certificate = r.certificateId) "loss successor abort certificate mismatch"
  pure ⟨r.abort, r.token, E.tokenDigest r.token, certificate⟩

/-- The participant a loss fences. -/
def lostIndex (participants : Fin 2 → Participant) (request : LossRequest) : Result (Fin 2) :=
  require (position participants fun p =>
    p.member = request.lostMember ∧ p.generation = request.lostGeneration)
    "lost participant mismatch"

/-- The checks the three sources of a loss share. -/
def JournalScope.lossSource (s : JournalScope) (request : LossRequest) (certificate digest : Id)
    (cut : Checkpoint) (participants : Fin 2 → Participant) (lost : Fin 2) : Result Unit := do
  let survivor := participants (1 - lost)
  ensure (request.install = s.install ∧ request.region = s.region ∧ request.scope = s.scope ∧
    request.schema = s.schema ∧ request.membership = s.membership ∧
    request.authorityId = s.authorityId ∧ request.sourceCertificate = certificate ∧
    request.sourceTokenDigest = digest ∧ request.sourceCut = cut) "loss source mismatch"
  ensure (request.survivor.member = survivor.member ∧
    request.survivor.generation = survivor.generation ∧
    request.survivor.oldBase = survivor.oldBase ∧
    request.replacementMember ≠ (participants 0).member ∧
    request.replacementMember ≠ (participants 1).member) "loss participant/revision mismatch"

/-- A superseding loss replaces the replacement and nothing else. -/
def Env.supersedesPrevious (s : Supersedes) (prev : LossRecord) (request : LossRequest)
    (chain : List LossRecord) (retired : Retired) : Result Unit := do
  let p := prev.request
  ensure (s.lossCertificate = prev.certificateId ∧ s.lossTokenDigest = E.tokenDigest prev.token)
    "superseded loss binding mismatch"
  ensure ((request.format = p.format ∧ request.kind = p.kind ∧
      request.authorityId = p.authorityId ∧ request.install = p.install ∧
      request.region = p.region ∧ request.scope = p.scope ∧ request.schema = p.schema ∧
      request.membership = p.membership ∧ request.sourceCertificate = p.sourceCertificate) ∧
    request.sourceTokenDigest = p.sourceTokenDigest ∧ request.sourceCut = p.sourceCut ∧
      request.lostMember = p.lostMember ∧ request.lostGeneration = p.lostGeneration ∧
      request.survivor = p.survivor ∧ request.survivorCut = p.survivorCut ∧
      request.survivorPublication = p.survivorPublication ∧
      request.abandonedRequest = p.abandonedRequest)
    "superseding loss changes more than the replacement"
  ensure (¬retired.Contains request.replacementMember request.replacementGeneration
      request.replacementMembership ∧
    ∀ r ∈ chain, request.replacementMember ≠ r.request.replacementMember ∧
      request.replacementGeneration ≠ r.request.replacementGeneration ∧
      request.replacementMembership ≠ r.request.replacementMembership)
    "superseding loss reuses a retired replacement"

def JournalScope.validateSuccessorRequest (scope : JournalScope) (loss : LossRequest)
    (request : LossSuccessorRequest) : Result Unit := do
  let (s, rp) ← roles request
  ensure ((request.revision = scope.initialRevision ∧ request.install = loss.install ∧
      request.region = loss.region ∧ request.scope = loss.scope ∧ request.schema = loss.schema ∧
      request.membership = loss.replacementMembership ∧
      request.authorityId = loss.authorityId ∧
      request.sourceCertificate = loss.sourceCertificate ∧
      request.sourceTokenDigest = loss.sourceTokenDigest ∧ request.sourceCut = loss.sourceCut) ∧
    request.parentLossCertificate ≠ zeroId ∧ request.survivorCut = loss.survivorCut ∧
      request.survivorPublication = loss.survivorPublication ∧
      (request.participants s).member = loss.survivor.member ∧
      (request.participants s).generation = loss.survivor.generation ∧
      (request.participants s).oldBase = loss.survivor.oldBase ∧
      (request.participants rp).member = loss.replacementMember ∧
      (request.participants rp).generation = loss.replacementGeneration ∧
      ∀ i, (request.participants i).target = loss.survivorCut ∧
        (request.participants i).publication = loss.survivorPublication)
    "replacement transition binding mismatch"

namespace Journal

variable (j : Journal T)

/-- The record a `completed` loss is anchored to: below an open head, the last
completed one. -/
def completedSource (history : History) (request : LossRequest) : Result (Record × Bool) := do
  let head ← require history.head "completed transition required"
  if head.completion.isNone then do
    let digest ← E.documentDigest .transition head.request
    ensure (request.abandonedRequest = some digest)
      "open decided transition must be abandoned or sourced"
    let record ← require history.completed "completed transition required"
    pure (record, true)
  else pure (head, false)

def lossFromCompleted (history : History) (request : LossRequest) (trust : Trust) : Result ℕ := do
  let (record, abandoning) ← completedSource E history request
  let source ← E.committed record trust
  ensure (record.completion.isSome ∧ record.acknowledgements = both true)
    "completed transition required"
  let lost ← lostIndex record.request.participants request
  ensure (abandoning = true → ∀ head ∈ history.head, head.acknowledgements (1 - lost) = false)
    "abandoned transition already applied by the survivor"
  j.scope.lossSource request source.certificateId source.tokenDigest
    (record.request.participants 0).target record.request.participants lost
  pure history.lastRevision

def lossFromDecided (history : History) (request : LossRequest) (trust : Trust) : Result ℕ := do
  let head ← require history.head "decided transition required"
  ensure (head.completion = none) "decided transition required"
  let digest ← E.documentDigest .transition head.request
  ensure (request.abandonedRequest = some digest)
    "abandoned request must name the decided transition"
  let source ← E.committed head trust
  let lost ← lostIndex head.request.participants request
  ensure (head.acknowledgements lost = false)
    "lost participant already acknowledged; complete the transition instead"
  ensure (head.acknowledgements (1 - lost) = true)
    "finish forward requires the survivor acknowledgement"
  j.scope.lossSource request source.certificateId source.tokenDigest
    (head.request.participants 0).target head.request.participants lost
  pure history.lastRevision

def ensureSuccessorNotAborted (trust : Trust) : Result Unit := do
  let abort ← j.readSuccessorAbort E trust
  ensure (abort = none) "loss successor aborted"

def ensureSuccessorLive (trust : Trust) : Result Unit := do
  let lost ← j.lossRecordExists E trust
  ensure (lost = false) "loss successor superseded by participant loss"

def requireParent (trust : Trust) : Result SuccessorParent := do
  require (← j.readParent E trust) "loss parent missing"

def requireSuccessor (trust : Trust) : Result LossSuccessorRecord := do
  require (← j.readSuccessor E trust) "replacement transition missing"

def lossFromSuccessor (history : History) (request : LossRequest) (trust : Trust) : Result ℕ := do
  ensure (history.head = none) "ordinary successor history forbidden"
  let parent ← j.requireParent E trust
  let successor ← j.requireSuccessor E trust
  j.ensureSuccessorNotAborted E trust
  ensure (successor.request.format = 2) "format-1 loss successor cannot source a loss"
  ensure (successor.acknowledgements = both true ∧ successor.completion.isSome)
    "completed replacement transition required"
  let lost ← lostIndex successor.request.participants request
  j.scope.lossSource request successor.certificateId (E.tokenDigest successor.token)
    successor.request.survivorCut successor.request.participants lost
  ensure (¬parent.retired.Contains request.replacementMember request.replacementGeneration
      request.replacementMembership ∧
    request.replacementMember ≠ parent.loss.request.lostMember ∧
    request.replacementGeneration ≠ parent.loss.request.lostGeneration ∧
    request.replacementMembership ≠ parent.loss.request.membership)
    "loss replacement reuses a retired identity"
  pure (max history.lastRevision successor.request.revision)

def lossBase (history : History) (request : LossRequest) (trust : Trust) : Result ℕ :=
  match request.kind with
  | .lossSuccessor => j.lossFromSuccessor E history request trust
  | .decided => j.lossFromDecided E history request trust
  | .completed => j.lossFromCompleted E history request trust

/-- The revision before the one the loss has to take. -/
def lossExpected (base : ℕ) (chain : List LossRecord) (request : LossRequest) (trust : Trust)
    (policy : LossPolicy) : Result ℕ :=
  match request.supersedes, chain.getLast? with
  | none, some _ => throw (.message "immutable loss decision conflict")
  | some _, none => throw (.message "superseded loss decision missing")
  | some s, some prev => do
    let parent ← j.readParent E trust
    let retired := (parent.map SuccessorParent.retired).getD Retired.empty
    E.supersedesPrevious s prev request chain retired
    policy.supersededSuccessorAborted j.scope prev.request s
    pure prev.request.revision
  | none, none => pure base

def saveLoss (record : LossRecord) : Result (Journal T) :=
  if record.request.supersedes.isSome then j.saveChainRecord E record else j.saveRecord E record

/-- The branch of `decide_loss` for a request that is not the effective loss. -/
def decideLossNew (base : ℕ) (chain : List LossRecord) (request : LossRequest) (token : String)
    (now : ℕ) (trust : Trust) (policy : LossPolicy) : Result (Journal T × CommittedLoss) := do
  let expected ← j.lossExpected E base chain request trust policy
  let next ← checkedSucc expected "loss revision overflow"
  ensure (request.revision = next) "loss participant/revision mismatch"
  let certificate ← E.verifyLossIssuance token trust request now
  policy.continuityAndFencing 0 j.scope request
  policy.survivorPrepared j.scope request
  policy.continuityAndFencing 1 j.scope request
  let record : LossRecord := ⟨request, token, certificate⟩
  let saved ← j.saveLoss E record
  let committed ← E.committedLoss record trust
  pure (saved, committed)

def decideLoss (request : LossRequest) (token : String) (now : ℕ) (trust : Trust)
    (policy : LossPolicy) : Result (Journal T × CommittedLoss) := do
  request.validate
  ensure (token.utf8ByteSize ≤ maxToken) "token limit"
  let history ← j.read E trust
  let base ← j.lossBase E history request trust
  policy.maintenanceAuthorized j.scope request
  let chain ← j.readLossHistory E trust
  match chain.getLast?.filter fun old => old.request = request with
  | some old => do
    ensure (old.token = token) "immutable loss decision conflict"
    policy.continuityAndFencing 0 j.scope request
    let committed ← E.committedLoss old trust
    pure (j, committed)
  | none => j.decideLossNew E base chain request token now trust policy

def fetchLoss (ask : ℕ) (trust : Trust) (policy : LossPolicy) : Result CommittedLoss := do
  j.ensureJournalFormat E
  let record ← require (← j.readRecord E trust) "loss decision missing"
  policy.continuityAndFencing ask j.scope record.request
  E.committedLoss record trust

end Journal

/-- What a chain adds to the retired identities: the lost participant and every
superseded replacement. -/
def Retired.pushChain (retired : Retired) : List LossRecord → Retired
  | [] => retired
  | first :: rest =>
    let lost := retired.push first.request.lostMember first.request.lostGeneration
      first.request.membership
    (first :: rest).dropLast.foldl (fun acc r => acc.push r.request.replacementMember
      r.request.replacementGeneration r.request.replacementMembership) lost

def Journal.retiredIdentities (j : Journal T) (trust : Trust) : Result Retired := do
  let parent ← j.readParent E trust
  let history ← j.readLossHistory E trust
  pure (((parent.map SuccessorParent.retired).getD Retired.empty).pushChain history)

end TerrapiVault.Recovery
