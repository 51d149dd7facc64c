import TerrapiVault.Replication.PublicationSteps
import Mathlib.Logic.Relation

/-! The two-copy protocol in its own terms: the history both nodes have applied, the
one entry on its way, and how far a published base has come. -/
namespace TerrapiVault.Replication

variable {D : Type}

namespace Publication

/-- The primary captures first and confirms last; it activates last. -/
inductive Stage (D : Type) where
  | vacant
  | captured (p : Proposal D)
  | mirrored (p : Proposal D)
  | acknowledged (p : Proposal D)
  | confirmed (p : Proposal D)
  | following (p : Proposal D)
  | active (p : Proposal D)

namespace Stage

def proposal : Stage D → Option (Proposal D)
  | .vacant => none
  | .captured p | .mirrored p | .acknowledged p | .confirmed p | .following p | .active p => some p

def primaryRecord : Stage D → Option (Record D)
  | .vacant => none
  | .captured p | .mirrored p | .acknowledged p => some ⟨p, .captured⟩
  | .confirmed p | .following p | .active p => some ⟨p, .confirmed⟩

def secondaryRecord : Stage D → Option (Record D)
  | .vacant | .captured _ => none
  | .mirrored p => some ⟨p, .captured⟩
  | .acknowledged p | .confirmed p | .following p | .active p => some ⟨p, .confirmed⟩

def primaryBase : Stage D → Option (Checkpoint ℕ D)
  | .active p => some p.checkpoint
  | _ => none

def secondaryBase : Stage D → Option (Checkpoint ℕ D)
  | .following p | .active p => some p.checkpoint
  | _ => none

/-- No capture waits for its confirmation on the primary. -/
def Idle (stage : Stage D) : Prop := ∀ r ∈ stage.primaryRecord, r.phase = .confirmed

/-- The secondary confirms before the primary. -/
theorem Idle.secondary {stage : Stage D} (idle : stage.Idle) :
    ∀ r ∈ stage.secondaryRecord, r.phase = .confirmed := by
  cases stage <;> simp [Idle, primaryRecord, secondaryRecord] at idle ⊢

/-- What one stage has reached another has not lost. -/
structure Advances (stage stage' : Stage D) : Prop where
  proposal : ∀ r, stage.proposal = some r → stage'.proposal = some r
  confirmed : ∀ r, stage.primaryRecord = some ⟨r, .confirmed⟩ →
    stage'.primaryRecord = some ⟨r, .confirmed⟩
  primaryBase : ∀ b, stage.primaryBase = some b → stage'.primaryBase = some b
  secondaryBase : ∀ b, stage.secondaryBase = some b → stage'.secondaryBase = some b

theorem Advances.refl (stage : Stage D) : Advances stage stage :=
  ⟨fun _ => id, fun _ => id, fun _ => id, fun _ => id⟩

theorem Advances.trans {first second third : Stage D} (h : Advances first second)
    (h' : Advances second third) : Advances first third :=
  ⟨fun r known => h'.proposal r (h.proposal r known),
    fun r known => h'.confirmed r (h.confirmed r known),
    fun b known => h'.primaryBase b (h.primaryBase b known),
    fun b known => h'.secondaryBase b (h.secondaryBase b known)⟩

end Stage

end Publication

namespace Protocol

open Publication (Stage Proposal)

variable {X : Engine D} {identity : Identity ℕ}

/-- Where the entry after `h` stands: on the primary, on both nodes, decided on the
primary, applied on the secondary. -/
inductive Phase (h : History X.schema identity) where
  | idle
  | prepared (e : RefEntry D) (next : h.Next e)
  | staged (e : RefEntry D) (next : h.Next e)
  | decided (e : RefEntry D) (next : h.Next e)
  | landed (e : RefEntry D) (next : h.Next e)

namespace Phase

variable {h : History X.schema identity}

def primaryTail : Phase h → Option (RefEntry D)
  | .idle => none
  | .prepared e _ | .staged e _ => some (e.withState .prepared)
  | .decided e _ | .landed e _ => some (e.withState .decided)

def secondaryTail : Phase h → Option (RefEntry D)
  | .staged e _ | .decided e _ => some (e.withState .prepared)
  | .idle | .prepared _ _ | .landed _ _ => none

/-- What the secondary has applied. -/
def secondary : Phase h → History X.schema identity
  | .landed e next => h.push e next
  | .idle | .prepared _ _ | .staged _ _ | .decided _ _ => h

/-- What the primary has applied or decided. -/
def committed : Phase h → History X.schema identity
  | .decided e next | .landed e next => h.push e next
  | .idle | .prepared _ _ | .staged _ _ => h

end Phase

structure Position (X : Engine D) (identity : Identity ℕ) where
  history : History X.schema identity
  phase : Phase history
  stage : Stage D

namespace Position

def initial (X : Engine D) (identity : Identity ℕ) : Position X identity :=
  ⟨History.initial X.schema identity, .idle, .vacant⟩

def committed (a : Position X identity) : History X.schema identity := a.phase.committed

/-- The primary's journal. -/
def rows (a : Position X identity) : List (RefEntry D) :=
  a.history.entries ++ a.phase.primaryTail.toList

theorem history_grows (a : Position X identity) : History.Grows a.history a.phase.secondary := by
  obtain ⟨h, phase, stage⟩ := a
  cases phase with
  | landed e next => exact .push next
  | idle => exact .refl h
  | prepared e next => exact .refl h
  | staged e next => exact .refl h
  | decided e next => exact .refl h

theorem secondary_grows (a : Position X identity) :
    History.Grows a.phase.secondary a.committed := by
  obtain ⟨h, phase, stage⟩ := a
  cases phase with
  | landed e next => exact .refl _
  | idle => exact .refl h
  | prepared e next => exact .refl h
  | staged e next => exact .refl h
  | decided e next => exact .push next

end Position

/-- What a command may do beyond resolving what is on its way. -/
inductive Intent where
  | resolve
  | write (batch : Batch Change ℕ)
  | publish

/-- One move. Only the command that brought a request prepares and decides it, and
only a publishing command moves the primary's publication. -/
inductive Step (intent : Intent) : Position X identity → Position X identity → Prop
  | prepare {h stage e} (next : h.Next e) (request : intent = .write e.batch)
      (idle : stage.Idle) : Step intent ⟨h, .idle, stage⟩ ⟨h, .prepared e next, stage⟩
  | stage {h stage e} {next : h.Next e} :
      Step intent ⟨h, .prepared e next, stage⟩ ⟨h, .staged e next, stage⟩
  | withdraw {h stage e} {next : h.Next e} :
      Step intent ⟨h, .staged e next, stage⟩ ⟨h, .prepared e next, stage⟩
  | abort {h stage e} {next : h.Next e} :
      Step intent ⟨h, .prepared e next, stage⟩ ⟨h, .idle, stage⟩
  | decide {h stage e} {next : h.Next e} (request : intent = .write e.batch) :
      Step intent ⟨h, .staged e next, stage⟩ ⟨h, .decided e next, stage⟩
  | land {h stage e} {next : h.Next e} :
      Step intent ⟨h, .decided e next, stage⟩ ⟨h, .landed e next, stage⟩
  | finish {h stage e} {next : h.Next e} :
      Step intent ⟨h, .landed e next, stage⟩ ⟨h.push e next, .idle, stage⟩
  | capture {h} {p : Proposal D} (publishing : intent = .publish)
      (current : p.checkpoint = h.checkpoint) :
      Step intent ⟨h, .idle, .vacant⟩ ⟨h, .idle, .captured p⟩
  | mirror {h phase} {p : Proposal D} :
      Step intent ⟨h, phase, .captured p⟩ ⟨h, phase, .mirrored p⟩
  | acknowledge {h phase} {p : Proposal D} :
      Step intent ⟨h, phase, .mirrored p⟩ ⟨h, phase, .acknowledged p⟩
  | confirm {h phase} {p : Proposal D} (publishing : intent = .publish) :
      Step intent ⟨h, phase, .acknowledged p⟩ ⟨h, phase, .confirmed p⟩
  | follow {h phase} {p : Proposal D} :
      Step intent ⟨h, phase, .confirmed p⟩ ⟨h, phase, .following p⟩
  | activate {h phase} {p : Proposal D} (publishing : intent = .publish) :
      Step intent ⟨h, phase, .following p⟩ ⟨h, phase, .active p⟩

def Steps (intent : Intent) : Position X identity → Position X identity → Prop :=
  Relation.ReflTransGen (Step intent)

variable {intent : Intent} {a b : Position X identity}

theorem Step.unsolicited (step : Step .resolve a b) : Step intent a b := by
  cases step with
  | prepare next request idle => simp at request
  | decide request => simp at request
  | stage => exact .stage
  | withdraw => exact .withdraw
  | abort => exact .abort
  | land => exact .land
  | finish => exact .finish
  | capture publishing current => simp at publishing
  | mirror => exact .mirror
  | acknowledge => exact .acknowledge
  | confirm publishing => simp at publishing
  | follow => exact .follow
  | activate publishing => simp at publishing

theorem Steps.unsolicited (steps : Steps .resolve a b) : Steps intent a b := by
  induction steps with
  | refl => exact .refl
  | tail _ step ih => exact ih.tail step.unsolicited

/-- The applied and the committed history only grow, and a new committed entry is the
command's request. -/
theorem Step.grows (step : Step intent a b) :
    History.Grows a.history b.history ∧
      (b.committed = a.committed ∨ ∃ e next, intent = .write e.batch ∧
        b.committed = a.committed.push e next) := by
  cases step with
  | @finish h stage e next => exact ⟨.push next, .inl rfl⟩
  | @decide h stage e next request => exact ⟨.refl _, .inr ⟨e, next, request, rfl⟩⟩
  | _ => exact ⟨.refl _, .inl rfl⟩

theorem Steps.history_grows (steps : Steps intent a b) :
    History.Grows a.history b.history := by
  induction steps with
  | refl => exact .refl _
  | tail _ step ih => exact ih.trans step.grows.1

theorem Steps.committed_eq (steps : Steps .resolve a b) : b.committed = a.committed := by
  induction steps with
  | refl => rfl
  | tail _ step ih =>
    rcases step.grows.2 with same | ⟨e, next, request, _⟩
    · exact same.trans ih
    · simp at request

theorem Step.rows (step : Step .resolve a b) {e : RefEntry D} (mem : e ∈ b.rows) :
    ∃ e' ∈ a.rows, e'.withState e.state = e := by
  cases step with
  | prepare next request idle => simp at request
  | decide request => simp at request
  | capture publishing current => simp at publishing
  | confirm publishing => simp at publishing
  | activate publishing => simp at publishing
  | abort => exact ⟨e, List.mem_append_left _ (by simpa [Position.rows, Phase.primaryTail] using mem), rfl⟩
  | @finish h stage t next =>
    have split : e ∈ h.entries ∨ e = t.withState .applied := by
      simpa [Position.rows, Phase.primaryTail] using mem
    rcases split with old | rfl
    · exact ⟨e, List.mem_append_left _ old, rfl⟩
    · exact ⟨t.withState .decided, List.mem_append_right _ (List.mem_singleton.mpr rfl), rfl⟩
  | _ => exact ⟨e, mem, rfl⟩

theorem Steps.rows (steps : Steps .resolve a b) {e : RefEntry D} (mem : e ∈ b.rows) :
    ∃ e' ∈ a.rows, e'.withState e.state = e := by
  induction steps generalizing e with
  | refl => exact ⟨e, mem, rfl⟩
  | tail _ step ih =>
    obtain ⟨e', mem', same⟩ := step.rows mem
    obtain ⟨e'', mem'', same'⟩ := ih mem'
    exact ⟨e'', mem'', by rw [← same, ← same']; rfl⟩

/-- Without a publishing command the primary's publication stays where it is. -/
theorem Steps.primaryRecord_eq (steps : Steps intent a b) (other : intent ≠ .publish) :
    b.stage.primaryRecord = a.stage.primaryRecord ∧ b.stage.primaryBase = a.stage.primaryBase := by
  induction steps with
  | refl => exact ⟨rfl, rfl⟩
  | tail _ step ih =>
    cases step with
    | capture publishing => exact absurd publishing other
    | confirm publishing => exact absurd publishing other
    | activate publishing => exact absurd publishing other
    | _ => exact ih

theorem Step.advances (step : Step intent a b) : a.stage.Advances b.stage := by
  cases step with
  | capture | mirror | acknowledge | confirm | follow | activate =>
    constructor <;> simp [Stage.proposal, Stage.primaryRecord, Stage.primaryBase,
      Stage.secondaryBase]
  | _ => exact .refl _

theorem Steps.advances (steps : Steps intent a b) : a.stage.Advances b.stage := by
  induction steps with
  | refl => exact .refl _
  | tail _ step ih => exact ih.trans step.advances

theorem Steps.uncommitted {id : String} (steps : Steps intent a b)
    (other : ∀ batch, intent = .write batch → batch.operationId ≠ id) (absent : id ∉ a.committed.operations) :
    id ∉ b.committed.operations := by
  induction steps with
  | refl => exact absent
  | tail _ step ih =>
    rcases step.grows.2 with same | ⟨e, next, request, pushed⟩
    · rw [same]
      exact ih
    · rw [pushed, History.push_operations, List.mem_append, not_or]
      refine ⟨ih, ?_⟩
      have distinct := other e.batch request
      simpa using distinct.symm

end Protocol

end TerrapiVault.Replication
