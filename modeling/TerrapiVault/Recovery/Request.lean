import TerrapiVault.Replication.Envelope
import Mathlib.Data.Fintype.Basic

/-! Documents of the transition journal: the checkpoint transition request and its abort,
the scope a journal is opened with, the loss of a participant, the successor request that
activates the replacement and its abort. A pair of values is a function on `Fin 2`, primary
first, so the other participant is `1 - i`. -/
namespace TerrapiVault.Recovery

open Replication (Result ensure)

abbrev Id : Type := Replication.Bytes32

theorem participant_cases (i : Fin 2) : i = 0 ∨ i = 1 := by
  revert i
  decide

def zeroId : Id := Vector.replicate 32 0

/-- `u64::checked_add(1)`. -/
def checkedSucc (n : ℕ) (text : String) : Result ℕ := do
  ensure (n + 1 < 2 ^ 64) text
  pure (n + 1)

@[simp] theorem checkedSucc_eq_ok {n m : ℕ} {text : String} :
    checkedSucc n text = .ok m ↔ n + 1 < 2 ^ 64 ∧ n + 1 = m := by
  simp [checkedSucc]

/-- The characters `str::trim` removes. -/
def whiteSpace (c : Char) : Bool :=
  c.toNat ∈ [9, 10, 11, 12, 13, 32, 0x85, 0xA0, 0x1680, 0x2028, 0x2029, 0x202F, 0x205F, 0x3000] ∨
    (0x2000 ≤ c.toNat ∧ c.toNat ≤ 0x200A)

def blank (value : String) : Bool := value.toList.all whiteSpace

def maxText : ℕ := 512

abbrev ValidText (value : String) : Prop :=
  blank value = false ∧ value.utf8ByteSize ≤ maxText

structure Checkpoint where
  sequence : ℕ
  digest : Id
deriving DecidableEq

abbrev ValidCheckpoint (value : Checkpoint) : Prop :=
  value.sequence < 2 ^ 63 ∧ value.digest ≠ zeroId

abbrev ValidTarget (value : Checkpoint) : Prop :=
  0 < value.sequence ∧ ValidCheckpoint value

structure Participant where
  member : Id
  generation : Id
  oldBase : Option Checkpoint
  target : Checkpoint
  plan : Id
  publication : Id
deriving DecidableEq

/-- The fields every document of a journal begins with. -/
structure Heading where
  format : ℕ
  id : Id
  authorityId : Id
  revision : ℕ
  install : String
  region : String
  scope : Id
  schema : Id
  membership : Id
deriving DecidableEq

abbrev Heading.Valid (h : Heading) : Prop :=
  h.id ≠ zeroId ∧ h.authorityId ≠ zeroId ∧ 0 < h.revision ∧ h.revision < 2 ^ 63 ∧
    ValidText h.install ∧ ValidText h.region ∧ h.scope ≠ zeroId ∧ h.schema ≠ zeroId ∧
    h.membership ≠ zeroId

structure Request extends Heading where
  sourceAnchor : Checkpoint
  participants : Fin 2 → Participant
deriving DecidableEq

namespace Request

abbrev ValidScope (q : Request) : Prop :=
  q.format = 1 ∧ q.toHeading.Valid ∧ ValidCheckpoint q.sourceAnchor

abbrev ValidMembers (q : Request) : Prop :=
  (q.participants 0).member ≠ zeroId ∧ (q.participants 1).member ≠ zeroId ∧
    (q.participants 0).member ≠ (q.participants 1).member ∧
    (q.participants 0).generation ≠ zeroId ∧ (q.participants 1).generation ≠ zeroId ∧
    (q.participants 0).generation ≠ (q.participants 1).generation ∧
    (q.participants 0).plan ≠ zeroId ∧ (q.participants 1).plan ≠ zeroId ∧
    (q.participants 0).plan = (q.participants 1).plan ∧
    (q.participants 0).publication ≠ zeroId ∧ (q.participants 1).publication ≠ zeroId

abbrev ValidTargets (q : Request) : Prop :=
  ValidTarget (q.participants 0).target ∧
    (q.participants 0).target = (q.participants 1).target ∧
    q.sourceAnchor.sequence < (q.participants 0).target.sequence ∧
    ∀ i, ∀ base ∈ (q.participants i).oldBase,
      ValidCheckpoint base ∧ base.sequence < (q.participants i).target.sequence

abbrev Valid (q : Request) : Prop := q.ValidScope ∧ q.ValidMembers ∧ q.ValidTargets

def validate (q : Request) : Result Unit := ensure q.Valid "invalid transition request"

variable {q : Request}

theorem Valid.revision_lt (valid : q.Valid) : q.revision < 2 ^ 63 := valid.1.2.1.2.2.2.1

theorem Valid.target_eq (valid : q.Valid) (i j : Fin 2) :
    (q.participants i).target = (q.participants j).target := by
  have same : (q.participants 0).target = (q.participants 1).target := valid.2.2.2.1
  match i, j with
  | 0, 0 | 1, 1 => rfl
  | 0, 1 => exact same
  | 1, 0 => exact same.symm

end Request

/-- Cancellation of an in-flight transition. `decided` tells whether a decided
record exists at the aborted revision. -/
structure MaintenanceAbort extends Heading where
  abortedRequest : Id
  abortedRequestId : Id
  abortedRevision : ℕ
  decided : Bool
  sourceAnchor : Checkpoint
deriving DecidableEq

namespace MaintenanceAbort

abbrev Valid (a : MaintenanceAbort) : Prop :=
  a.format = 2 ∧ a.toHeading.Valid ∧ a.abortedRequest ≠ zeroId ∧ a.abortedRequestId ≠ zeroId ∧
    0 < a.abortedRevision ∧ a.abortedRevision < 2 ^ 63 ∧ a.revision = a.abortedRevision ∧
    ValidCheckpoint a.sourceAnchor

def validate (a : MaintenanceAbort) : Result Unit := ensure a.Valid "invalid maintenance abort"

end MaintenanceAbort

structure Profile where
  issuer : String
  audience : String
  tokenType : String
deriving DecidableEq

def Profile.validate (p : Profile) : Result Unit :=
  ensure (∀ value ∈ [p.issuer, p.audience, p.tokenType],
    blank value = false ∧ value.utf8ByteSize ≤ 512) "invalid trusted profile"

structure JournalScope where
  install : String
  region : String
  profile : Profile
  scope : Id
  schema : Id
  membership : Id
  sourceAnchor : Checkpoint
  authorityId : Id
  initialRevision : ℕ
deriving DecidableEq

def JournalScope.validate (s : JournalScope) : Result Unit := do
  ensure (ValidText s.install ∧ ValidText s.region ∧ s.scope ≠ zeroId ∧ s.schema ≠ zeroId ∧
    s.membership ≠ zeroId ∧ s.authorityId ≠ zeroId ∧ 0 < s.initialRevision ∧
    s.initialRevision < 2 ^ 63 ∧ ValidCheckpoint s.sourceAnchor)
    "invalid transition journal scope"
  s.profile.validate

/-! The documents of a participant loss. -/

/-- Cancellation of a decided loss successor. -/
structure LossSuccessorAbort extends Heading where
  parentLossCertificate : Id
  parentLossTokenDigest : Id
  successorId : Id
  successorCertificate : Id
  successorTokenDigest : Id
  fencingRef : Id
deriving DecidableEq

abbrev LossSuccessorAbort.Valid (a : LossSuccessorAbort) : Prop :=
  a.format = 2 ∧ a.toHeading.Valid ∧ a.parentLossCertificate ≠ zeroId ∧
    a.parentLossTokenDigest ≠ zeroId ∧ a.successorId ≠ zeroId ∧
    a.successorCertificate ≠ zeroId ∧ a.successorTokenDigest ≠ zeroId ∧ a.fencingRef ≠ zeroId

def LossSuccessorAbort.validate (a : LossSuccessorAbort) : Result Unit :=
  ensure a.Valid "invalid loss successor abort"

/-- What a loss decision is anchored to. -/
inductive SourceKind where
  | completed
  | decided
  | lossSuccessor
deriving DecidableEq

structure Supersedes where
  lossCertificate : Id
  lossTokenDigest : Id
  abortCertificate : Id
  abortTokenDigest : Id
deriving DecidableEq

structure LossRequest extends Heading where
  sourceCertificate : Id
  sourceTokenDigest : Id
  sourceCut : Checkpoint
  lostMember : Id
  lostGeneration : Id
  survivor : Participant
  survivorCut : Checkpoint
  survivorPublication : Id
  replacementMembership : Id
  replacementMember : Id
  replacementGeneration : Id
  fencingRef : Id
  sourceKind : Option SourceKind
  abandonedRequest : Option Id
  supersedes : Option Supersedes
deriving DecidableEq

namespace LossRequest

/-- A format-1 request carries no kind and means `completed`. -/
def kind (r : LossRequest) : SourceKind := r.sourceKind.getD .completed

abbrev ValidExtensions (r : LossRequest) : Prop :=
  (r.format = 1 ∧ r.sourceKind = none ∧ r.abandonedRequest = none ∧ r.supersedes = none) ∨
  (r.format = 2 ∧ r.sourceKind ≠ none ∧
    (∀ d ∈ r.abandonedRequest,
      d ≠ zeroId ∧ (r.sourceKind = some .completed ∨ r.sourceKind = some .decided)) ∧
    ∀ s ∈ r.supersedes, s.lossCertificate ≠ zeroId ∧ s.lossTokenDigest ≠ zeroId ∧
      s.abortCertificate ≠ zeroId ∧ s.abortTokenDigest ≠ zeroId)

abbrev ValidSource (r : LossRequest) : Prop :=
  r.toHeading.Valid ∧ r.sourceCertificate ≠ zeroId ∧ r.sourceTokenDigest ≠ zeroId ∧
    ValidCheckpoint r.sourceCut ∧ r.lostMember ≠ zeroId ∧ r.lostGeneration ≠ zeroId

abbrev ValidSurvivor (r : LossRequest) : Prop :=
  r.survivor.member ≠ zeroId ∧ r.survivor.generation ≠ zeroId ∧
    r.survivor.member ≠ r.lostMember ∧ ValidCheckpoint r.survivorCut ∧
    r.survivor.target = r.survivorCut ∧ r.survivorPublication ≠ zeroId ∧
    r.survivor.publication = r.survivorPublication ∧
    r.sourceCut.sequence ≤ r.survivorCut.sequence ∧
    (r.survivorCut.sequence = r.sourceCut.sequence → r.survivorCut = r.sourceCut)

/-- The replacement is none of the identities the request itself names. -/
abbrev ValidReplacement (r : LossRequest) : Prop :=
  r.replacementMember ≠ zeroId ∧ r.replacementMembership ≠ zeroId ∧
    r.replacementMembership ≠ r.membership ∧ r.replacementGeneration ≠ zeroId ∧
    r.replacementGeneration ≠ r.lostGeneration ∧
    r.replacementGeneration ≠ r.survivor.generation ∧ r.replacementMember ≠ r.lostMember ∧
    r.replacementMember ≠ r.survivor.member ∧ r.fencingRef ≠ zeroId

structure Valid (r : LossRequest) : Prop where
  extensions : r.ValidExtensions
  source : r.ValidSource
  survivor : r.ValidSurvivor
  replacement : r.ValidReplacement

set_option synthInstance.maxSize 512 in
instance (r : LossRequest) : Decidable r.Valid :=
  decidable_of_iff (r.ValidExtensions ∧ r.ValidSource ∧ r.ValidSurvivor ∧ r.ValidReplacement)
    ⟨fun h => ⟨h.1, h.2.1, h.2.2.1, h.2.2.2⟩, fun h => ⟨h.1, h.2, h.3, h.4⟩⟩

def validate (r : LossRequest) : Result Unit := ensure r.Valid "invalid participant loss request"

end LossRequest

/-- Activation of the replacement membership after a fenced loss. -/
structure LossSuccessorRequest extends Heading where
  sourceCertificate : Id
  sourceTokenDigest : Id
  sourceCut : Checkpoint
  parentLossCertificate : Id
  parentLossTokenDigest : Id
  survivorCut : Checkpoint
  survivorPublication : Id
  participants : Fin 2 → Participant
  survivorIndex : Option ℕ
deriving DecidableEq

/-- The survivor's position and the replacement's. -/
def roles (r : LossSuccessorRequest) : Result (Fin 2 × Fin 2) :=
  match r.format, r.survivorIndex with
  | 1, none => pure (0, 1)
  | 2, some 0 => pure (0, 1)
  | 2, some 1 => pure (1, 0)
  | _, _ => throw (.message "invalid loss successor request")

namespace LossSuccessorRequest

def replacement (r : LossSuccessorRequest) : Result Participant := do
  let (_, rp) ← roles r
  pure (r.participants rp)

def validate (r : LossSuccessorRequest) : Result Unit := do
  let (s, rp) ← roles r
  let survivor := r.participants s
  let replacement := r.participants rp
  ensure (r.toHeading.Valid ∧ r.sourceCertificate ≠ zeroId ∧
    r.sourceTokenDigest ≠ zeroId ∧ ValidCheckpoint r.sourceCut ∧ r.parentLossCertificate ≠ zeroId ∧
    r.parentLossTokenDigest ≠ zeroId ∧ ValidCheckpoint r.survivorCut ∧
    r.survivorPublication ≠ zeroId ∧ survivor.member ≠ zeroId ∧ replacement.member ≠ zeroId ∧
    survivor.member ≠ replacement.member ∧ survivor.generation ≠ zeroId ∧
    replacement.generation ≠ zeroId ∧ survivor.generation ≠ replacement.generation ∧
    survivor.plan ≠ zeroId ∧ survivor.plan = replacement.plan ∧
    survivor.target = r.survivorCut ∧ replacement.target = r.survivorCut ∧
    survivor.publication = r.survivorPublication ∧
    replacement.publication = r.survivorPublication ∧
    (∀ b ∈ survivor.oldBase, b.sequence ≤ r.survivorCut.sequence) ∧
    replacement.oldBase = some r.survivorCut) "invalid loss successor request"

end LossSuccessorRequest

end TerrapiVault.Recovery
