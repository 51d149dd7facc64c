import TerrapiVault.Recovery.LossJournal

/-! Successor journals: founding one from the effective loss of its source, deciding,
acknowledging and completing the successor recorded in it, and cancelling it. -/
namespace TerrapiVault.Recovery

open Replication (Result ensure)

variable {T : Type → Type} (E : Env T)

/-- What stands at the path of a successor journal. `pristine` is an encrypted
database without any journal table. -/
inductive SuccessorFile (T : Type → Type) where
  | absent
  | pristine
  | journal (j : Journal T)

def initializePristineSuccessor (scope : JournalScope) (parent : SuccessorParent) :
    Result (Journal T) := do
  ensure (E.bytes (E.encode parent) ≤ maxRecord) "loss parent limit"
  pure {
    scope := scope
    stored := E.encode ⟨scope, none⟩
    head := scope.initialRevision - 1
    parent := some (some (E.cell parent)) }

namespace Journal

/-- `Journal::open` of an existing journal file. -/
def reopen (j : Journal T) (scope : JournalScope) (trust : Trust) : Result (Journal T) := do
  scope.validate
  let this := { j with scope := scope }
  let _ ← this.read E trust
  pure this

/-- Everything `create_loss_successor` checks before it touches the path. -/
def expectedParent (source : Journal T) (scope : JournalScope) (trust : Trust)
    (policy : LossPolicy) : Result (SuccessorParent × Id) := do
  scope.validate
  let loss ← source.fetchLoss E 0 trust policy
  let request := loss.request
  let next ← checkedSucc request.revision "replacement revision overflow"
  ensure (scope.install = request.install ∧ scope.region = request.region ∧
    scope.scope = request.scope ∧ scope.schema = request.schema ∧
    scope.membership = request.replacementMembership ∧
    scope.sourceAnchor = request.sourceCut ∧ scope.authorityId = request.authorityId ∧
    scope.initialRevision = next) "replacement journal scope mismatch"
  ensure (scope.profile = trust.profile ∧ source.scope.profile = trust.profile)
    "replacement trust profile mismatch"
  let retired ← source.retiredIdentities E trust
  pure (⟨source.scope, ⟨request, loss.token, loss.certificateId⟩, retired⟩, loss.tokenDigest)

/-- The journal found at the path must still be empty and founded on this loss. -/
def resumeSuccessor (this : Journal T) (parent : SuccessorParent) (digest : Id) (trust : Trust) :
    Result Unit := do
  let history ← this.read E trust
  ensure (history.head = none) "replacement journal is not empty"
  let successor ← this.readSuccessor E trust
  ensure (successor = none) "replacement journal is not empty"
  let found ← this.requireParent E trust
  ensure (found = parent ∧ E.tokenDigest found.loss.token = digest)
    "replacement journal parent conflict"

def confirmParent (source : Journal T) (digest : Id) (text : String) (trust : Trust)
    (policy : LossPolicy) : Result Unit := do
  let loss ← source.fetchLoss E 1 trust policy
  ensure (loss.tokenDigest = digest) text

/-- The file left at the path and the outcome; a failure after the file was
initialized leaves the initialized file. -/
def createLossSuccessor (source : Journal T) (file : SuccessorFile T) (scope : JournalScope)
    (trust : Trust) (policy : LossPolicy) : SuccessorFile T × Result (Journal T) :=
  match source.expectedParent E scope trust policy with
  | .error e => (file, .error e)
  | .ok (parent, digest) =>
    match file with
    | .absent =>
      match initializePristineSuccessor E scope parent with
      | .error e => (.pristine, .error e)
      | .ok this => (.journal this, do
          source.confirmParent E digest "loss parent changed during initialization" trust policy
          pure this)
    | .pristine =>
      match initializePristineSuccessor E scope parent with
      | .error e => (.pristine, .error e)
      | .ok this => (.journal this, do
          let this ← this.reopen E scope trust
          this.resumeSuccessor E parent digest trust
          source.confirmParent E digest "loss parent changed during resume" trust policy
          pure this)
    | .journal existing => (file, do
        match existing.reopen E scope trust with
        | .error _ => throw (.message "successor initialization is not pristine")
        | .ok this => do
          this.resumeSuccessor E parent digest trust
          source.confirmParent E digest "loss parent changed during resume" trust policy
          pure this)

variable (j : Journal T)

def parentBinding (parent : SuccessorParent) (request : LossSuccessorRequest) : Result Unit :=
  ensure (request.parentLossCertificate = parent.loss.certificateId ∧
    request.parentLossTokenDigest = E.tokenDigest parent.loss.token)
    "replacement parent binding mismatch"

def decideLossSuccessor (request : LossSuccessorRequest) (token : String) (now : ℕ)
    (trust : Trust) (policy : LossPolicy) :
    Result (Journal T × CommittedLossSuccessorTransition) := do
  request.validate
  ensure (token.utf8ByteSize ≤ maxToken) "token limit"
  let history ← j.read E trust
  ensure (history.head = none) "ordinary successor history forbidden"
  j.ensureSuccessorLive E trust
  j.ensureSuccessorNotAborted E trust
  let parent ← j.requireParent E trust
  let replacement ← request.replacement
  ensure (¬parent.retired.Contains replacement.member replacement.generation request.membership)
    "replacement transition reuses a retired identity"
  let loss := parent.loss.request
  j.scope.validateSuccessorRequest loss request
  parentBinding E parent request
  match ← j.readSuccessor E trust with
  | some old => do
    ensure (old.request = request ∧ old.token = token) "immutable replacement transition conflict"
    policy.continuityAndFencing 0 parent.sourceScope loss
    policy.lossSuccessorContinuity 0 j.scope request
    pure (j, E.committedSuccessor old parent)
  | none => do
    policy.continuityAndFencing 0 parent.sourceScope loss
    policy.lossSuccessorContinuity 0 j.scope request
    let certificate ← E.verifySuccessorIssuance token trust request now
    policy.continuityAndFencing 1 parent.sourceScope loss
    policy.lossSuccessorContinuity 1 j.scope request
    let record : LossSuccessorRecord := ⟨request, token, certificate, both false, none⟩
    let saved ← j.saveSuccessor E record
    pure (saved, E.committedSuccessor record parent)

def fetchLossSuccessor (request : LossSuccessorRequest) (trust : Trust) (policy : LossPolicy) :
    Result CommittedLossSuccessorTransition := do
  request.validate
  let history ← j.read E trust
  ensure (history.head = none) "ordinary successor history forbidden"
  j.ensureSuccessorLive E trust
  j.ensureSuccessorNotAborted E trust
  let parent ← j.requireParent E trust
  j.scope.validateSuccessorRequest parent.loss.request request
  parentBinding E parent request
  let record ← j.requireSuccessor E trust
  ensure (record.request = request) "replacement transition unavailable"
  policy.continuityAndFencing 0 parent.sourceScope parent.loss.request
  policy.lossSuccessorContinuity 0 j.scope request
  pure (E.committedSuccessor record parent)

def acknowledgeLossSuccessor (decision : CommittedLossSuccessorTransition) (member : Participant)
    (trust : Trust) (policy : LossPolicy) : Result (Journal T) := do
  j.ensureJournalFormat E
  j.ensureSuccessorLive E trust
  j.ensureSuccessorNotAborted E trust
  let parent ← j.requireParent E trust
  let r ← j.requireSuccessor E trust
  ensure (r.request = decision.request ∧ E.tokenDigest r.token = decision.tokenDigest)
    "replacement handle mismatch"
  let i ← require (position r.request.participants (· = member)) "replacement member mismatch"
  policy.continuityAndFencing 0 parent.sourceScope parent.loss.request
  policy.lossSuccessorApplied parent.sourceScope parent.loss.request r.request member
  policy.continuityAndFencing 1 parent.sourceScope parent.loss.request
  policy.lossSuccessorContinuity 0 j.scope r.request
  if r.acknowledgements i then pure j
  else do
    j.saveSuccessorReplace E
      { r with acknowledgements := Function.update r.acknowledgements i true }

def completeLossSuccessor (decision : CommittedLossSuccessorTransition) (id : Id) (trust : Trust)
    (policy : LossPolicy) : Result (Journal T) := do
  ensure (id ≠ zeroId) "zero replacement completion"
  j.ensureJournalFormat E
  j.ensureSuccessorLive E trust
  j.ensureSuccessorNotAborted E trust
  let parent ← j.requireParent E trust
  let r ← j.requireSuccessor E trust
  ensure (r.request = decision.request ∧ r.acknowledgements = both true)
    "replacement completion evidence missing"
  policy.continuityAndFencing 0 parent.sourceScope parent.loss.request
  policy.lossSuccessorContinuity 0 j.scope r.request
  match r.completion with
  | some old => do
    ensure (old = id) "immutable replacement completion conflict"
    pure j
  | none => j.saveSuccessorReplace E { r with completion := some id }

def fetchCompletedLossSuccessor (request : LossSuccessorRequest) (trust : Trust)
    (policy : LossPolicy) : Result CompletedLossSuccessorTransition := do
  let d ← j.fetchLossSuccessor E request trust policy
  ensure (d.acknowledgements = both true) "replacement acknowledgements incomplete"
  j.ensureJournalFormat E
  j.ensureSuccessorLive E trust
  j.ensureSuccessorNotAborted E trust
  let r ← j.requireSuccessor E trust
  let completion ← require r.completion "replacement completion missing"
  pure ⟨r.request, d.tokenDigest, d.certificateId, completion⟩

/-- The branch of `abort_loss_successor` without a recorded abort. -/
def abortLossSuccessorNew (parent : SuccessorParent) (abort : LossSuccessorAbort) (token : String)
    (now : ℕ) (trust : Trust) (policy : LossPolicy) :
    Result (Journal T × CommittedLossSuccessorAbort) := do
  let successor ← j.requireSuccessor E trust
  ensure (successor.request.id = abort.successorId ∧
    successor.certificateId = abort.successorCertificate ∧
    E.tokenDigest successor.token = abort.successorTokenDigest ∧
    successor.request.revision = abort.revision) "loss successor abort binding mismatch"
  ensure (successor.completion = none) "completed loss successor cannot be aborted"
  policy.successorAbortAuthorized parent.sourceScope parent.loss.request successor.request abort
  let certificate ← E.verifySuccessorAbortIssuance token trust abort now
  policy.continuityAndFencing 1 parent.sourceScope parent.loss.request
  let record : SuccessorAbortRecord := ⟨2, abort, token, certificate⟩
  let saved ← j.saveSuccessorAbort E record
  let committed ← E.committedSuccessorAbort record trust
  pure (saved, committed)

def abortLossSuccessor (abort : LossSuccessorAbort) (token : String) (now : ℕ) (trust : Trust)
    (policy : LossPolicy) : Result (Journal T × CommittedLossSuccessorAbort) := do
  abort.validate
  ensure (token.utf8ByteSize ≤ maxToken) "token limit"
  j.ensureJournalFormat E
  j.ensureSuccessorLive E trust
  let parent ← j.requireParent E trust
  ensure (abort.install = j.scope.install ∧ abort.region = j.scope.region ∧
    abort.scope = j.scope.scope ∧ abort.schema = j.scope.schema ∧
    abort.membership = j.scope.membership ∧ abort.authorityId = j.scope.authorityId ∧
    abort.parentLossCertificate = parent.loss.certificateId ∧
    abort.parentLossTokenDigest = E.tokenDigest parent.loss.token)
    "loss successor abort parent binding"
  policy.continuityAndFencing 0 parent.sourceScope parent.loss.request
  match ← j.readSuccessorAbort E trust with
  | some existing => do
    ensure (existing.abort = abort ∧ existing.token = token)
      "immutable loss successor abort conflict"
    policy.continuityAndFencing 1 parent.sourceScope parent.loss.request
    let committed ← E.committedSuccessorAbort existing trust
    pure (j, committed)
  | none => j.abortLossSuccessorNew E parent abort token now trust policy

end Journal

end TerrapiVault.Recovery
