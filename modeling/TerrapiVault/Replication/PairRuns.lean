import TerrapiVault.Replication.PairWrites
import TerrapiVault.Replication.PairPublication

/-! Whole runs of a coordinator: every command makes protocol moves, so every state a
run reaches is a protocol state. -/
namespace TerrapiVault.Replication

open CrashLogic Protocol

variable {D : Type}

namespace Choice

/-- Nobody but the coordinator uses the secondary. -/
def Alone (choice : Choice D) : Prop := choice.others = []

/-- Moreover the process keeps running and every call is answered. -/
structure Calm (choice : Choice D) : Prop where
  alone : choice.Alone
  before : choice.stopBefore = false
  after : choice.stopAfter = false
  answered : choice.answered = true

end Choice

namespace Command

/-- What a command may do. -/
def intent : Command → Intent
  | .recover => .resolve
  | .commit batch | .write batch => .write batch
  | .publishBase | .activateBase => .publish

end Command

variable {X : Engine D} {identity : Identity ℕ}

namespace Pair

variable {allow : Choice D → Prop}

theorem calm_not_stoppable (calm : ∀ choice, allow choice → choice.Calm) : ¬Stoppable allow := by
  intro ⟨choice, allowed, stops⟩
  rw [(calm choice allowed).before, (calm choice allowed).after] at stops
  simp at stops

theorem calm_not_lossy (calm : ∀ choice, allow choice → choice.Calm) : ¬Lossy allow := by
  intro ⟨choice, allowed, lost⟩
  rw [(calm choice allowed).answered] at lost
  simp at lost

end Pair

/-- The moves of a sequence of commands. -/
def Protocol.Moves (admits : Command → Prop) : Position X identity → Position X identity → Prop :=
  Relation.ReflTransGen fun a b => ∃ command, admits command ∧ Steps command.intent a b

namespace Protocol.Moves

variable {admits : Command → Prop} {a b : Position X identity}

theorem history_grows (moves : Moves admits a b) : History.Grows a.history b.history := by
  induction moves with
  | refl => exact .refl _
  | tail _ move ih =>
    obtain ⟨command, _, steps⟩ := move
    exact ih.trans steps.history_grows

theorem advances (moves : Moves admits a b) : a.stage.Advances b.stage := by
  induction moves with
  | refl => exact .refl _
  | tail _ move ih =>
    obtain ⟨command, _, steps⟩ := move
    exact ih.trans steps.advances

theorem uncommitted {id : String} (moves : Moves admits a b)
    (other : ∀ command, admits command → ∀ batch ∈ command.submitted, batch.operationId ≠ id)
    (absent : id ∉ a.committed.operations) : id ∉ b.committed.operations := by
  induction moves with
  | refl => exact absent
  | tail _ move ih =>
    obtain ⟨command, admitted, steps⟩ := move
    refine steps.uncommitted ?_ ih
    intro batch request
    refine other command admitted batch ?_
    cases command <;> simp_all [Command.intent, Command.submitted]

theorem committed_grows (moves : Moves admits a b) : History.Grows a.committed b.committed := by
  have single {intent : Intent} {a b : Position X identity} (steps : Steps intent a b) :
      History.Grows a.committed b.committed := by
    induction steps with
    | refl => exact .refl _
    | tail _ step ih =>
      rcases step.grows.2 with same | ⟨e, next, _, pushed⟩
      · exact same ▸ ih
      · exact pushed ▸ ih.trans (.push next)
  induction moves with
  | refl => exact .refl _
  | tail _ move ih => exact ih.trans (single move.choose_spec.2)

end Protocol.Moves

variable [DecidableEq D]

namespace Command

variable {a : Position X identity} {choices : ℕ → Choice D} {pair : Pair D}

theorem exec_since (command : Command) (alone : ∀ n, (choices n).Alone)
    (since : Pair.Since command.intent a pair) :
    Pair.Since command.intent a (command.exec X choices pair) := by
  have nobody : ∀ choice : Choice D, choice.Alone → choice.others = [] := fun _ alone => alone
  cases command with
  | recover =>
    have spec : Triple _ _ _ _ _ (Pair.Failed Choice.Alone .resolve a fun _ _ => False) :=
      Pair.recover_spec nobody
    refine spec.final (fun _ crashed => crashed.2) ?_ (fun _ _ failed => failed.2) alone since
    intro _ pair ⟨h, stage, p, s, ⟨steps, agree, _⟩, here⟩
    exact ⟨_, steps, here.holds agree⟩
  | commit batch =>
    refine (Pair.commit_spec nobody).final (fun _ crashed => crashed.2) ?_
      (fun _ _ failed => failed.2) alone since
    intro _ pair ⟨h, stage, p, s, ⟨steps, agree, _⟩, here⟩
    exact ⟨_, steps, here.holds agree⟩
  | write batch =>
    have spec : Triple _ (Pair.Crashed Choice.Alone (.write batch) a) _ (Pair.write X batch) _
      fun _ _ => False := Pair.write_spec nobody
    refine spec.final (fun _ crashed => crashed.2) ?_ (fun _ _ => False.elim) alone since
    intro r pair answered
    cases r with
    | ok r =>
      obtain ⟨h, stage, p, s, ⟨steps, agree, _⟩, here⟩ := answered
      exact ⟨_, steps, here.holds agree⟩
    | error f =>
      obtain ⟨_, b, steps, holds, _⟩ := answered
      exact ⟨b, steps, holds⟩
  | publishBase =>
    refine (Pair.publishBase_spec nobody).final (fun _ crashed => crashed.2) ?_
      (fun _ _ failed => failed.2) alone since
    intro _ pair ⟨h, stage, p, s, ⟨steps, agree, _⟩, here⟩
    exact ⟨_, steps, here.holds agree⟩
  | activateBase =>
    refine (Pair.activateBase_spec nobody).final (fun _ crashed => crashed.2) ?_
      (fun _ _ failed => failed.2) alone since
    intro _ pair ⟨h, r, p, s, ⟨steps, agree⟩, here⟩
    exact ⟨_, steps, here.holds agree⟩

end Command

theorem Reachable.moves {admits : Command → Prop} {start pair : Pair D} {a : Position X identity}
    (reachable : Reachable X Choice.Alone admits start pair) (holds : Pair.Holds a start) :
    ∃ b, Moves admits a b ∧ Pair.Holds b pair := by
  induction reachable with
  | refl => exact ⟨a, .refl, holds⟩
  | command command choices _ admitted alone ih =>
    obtain ⟨b, moves, holds⟩ := ih
    obtain ⟨c, steps, holds⟩ := command.exec_since alone ⟨b, .refl, holds⟩
    exact ⟨c, moves.tail ⟨command, admitted, steps⟩, holds⟩

theorem Pair.create_holds (X : Engine D) (supported : identity.schema = 1 ∧ 0 < identity.epoch)
    (generation revision generation' revision' : Bytes32) :
    Pair.Holds (Position.initial X identity)
      (Pair.create identity generation revision generation' revision') :=
  .of_answered (agree_create X supported generation revision generation' revision') rfl

/-! A new request that both nodes can execute is committed once every call is answered. -/

/-- After `h` nothing stands in the way of the request. -/
structure Admissible (h : History X.schema identity) (batch : Batch Change ℕ) : Prop where
  scope : batch.identity = identity
  named : batch.operationId ≠ ""
  fresh : batch.operationId ∉ h.operations
  room : h.length + 1 < 2 ^ 63
  executes : ∀ node : Node D, h.view = .ok node.store.data → ∃ next changeset view,
    X.schema.capture node.store.data batch.changes = .ok (next, changeset) ∧
    checkEntrySize X.schema (node.preparedEntry X batch (h.length + 1) next changeset) = .ok () ∧
    X.schema.replay node.store.data changeset = .ok view ∧
    X.schema.viewDigest view = X.schema.viewDigest next

theorem Node.Sound.prepare_eq {node : Node D} {h : History X.schema identity}
    {batch : Batch Change ℕ} (sound : node.Sound h none) (role : node.role = .primary)
    (idle : ∀ r ∈ node.published, r.phase = .confirmed) (view : h.view = .ok node.store.data)
    (ok : Admissible h batch) :
    ∃ e, (∃ next view, X.schema.capture node.store.data batch.changes = .ok (next, e.changeset) ∧
        X.schema.replay node.store.data e.changeset = .ok view ∧
        X.schema.viewDigest view = e.after) ∧
      ∀ random, node.prepare X batch random =
        .ok (e, node.setLog (node.store.log ++ [e]) random) := by
  obtain ⟨next, changeset, view, captured, fits, replayed, digest⟩ := ok.executes node view
  have link : h.Next (node.preparedEntry X batch (h.length + 1) next changeset) := by
    refine ⟨⟨ok.scope, rfl, ok.named, ?_, ok.room, sound.store.data, fits⟩, ok.fresh⟩
    simp [preparedEntry]
  refine ⟨node.preparedEntry X batch (h.length + 1) next changeset,
    ⟨next, view, captured, replayed, digest⟩, fun random => ?_⟩
  have scope : batch.identity = node.identity ∧ batch.operationId ≠ "" :=
    ⟨ok.scope.trans sound.identity_eq.symm, ok.named⟩
  have absent : node.store.byOperation X.schema batch.operationId = .ok none := by
    refine sound.store.byOperation_absent fun e mem same => ok.fresh ?_
    rcases sound.store.mem_log.mp mem with old | new
    · exact same ▸ h.mem_operations old
    · simp at new
  have unknown : node.store.receipt? batch.operationId = none :=
    sound.store.receipt?_absent ok.fresh
  obtain ⟨head, found, length⟩ : ∃ head, node.journalHead = .ok head ∧ head.length = h.length :=
    ⟨_, sound.journalHead_eq, rfl⟩
  have bound : head.length + 1 < 2 ^ 64 := by
    have room := ok.room
    omega
  have ready : node.publicationIdle = .ok () := ensure_of idle
  have resolved : node.store.resolved = true := sound.store.resolved_iff.mpr rfl
  have saved := sound.store.save_new link (by simp [preparedEntry]) random
  rw [← length] at fits saved ⊢
  rw [prepare, ensure_of role, ok_bind, ensure_of scope, ok_bind,
    sound.admission_eq, ok_bind, absent, ok_bind]
  dsimp only
  rw [sound.store.getReceipt_eq, ok_bind, ensure_of unknown, ok_bind,
    found, ok_bind, ensure_of bound, ok_bind, ready, ok_bind,
    ensure_of resolved, ok_bind, captured, ok_bind]
  dsimp only
  rw [fits, ok_bind, saved]
  rfl

theorem Protocol.Agree.stage_ready {p s : Node D} {h : History X.schema identity}
    {e : RefEntry D} {next : h.Next e} {stage : Publication.Stage D}
    (agree : Agree ⟨h, .prepared e next, stage⟩ p s) (prepared : e.state = .prepared) {view : View}
    (replayed : X.schema.replay s.store.data e.changeset = .ok view)
    (digest : X.schema.viewDigest view = e.after) (random : Bytes32) :
    ∃ s', s.stage X e random = .ok ((), s') ∧ Agree ⟨h, .staged e next, stage⟩ p s' := by
  have same : e.withState .prepared = e := by rw [← prepared]; rfl
  have base : X.schema.viewDigest s.store.data = e.before :=
    agree.secondary.store.data.trans next.linked.before_eq.symm
  have dry : X.schema.replayData s.store.data e.before e.after e.changeset = .ok view :=
    Schema.replayData_eq_ok.mpr ⟨base, replayed, digest⟩
  have saved := agree.secondary.store.save_new (next.withState .prepared)
    (by simp [Entry.withState]) random
  have ran : s.stage X (e.withState .prepared) random =
      .ok ((), s.setLog (s.store.log ++ [e.withState .prepared]) random) := by
    rw [agree.stage_eq, dry, ok_bind, saved]
    rfl
  rw [same] at ran
  exact ⟨_, ran, agree.staged rfl ran⟩

namespace Pair

variable {allow : Choice D → Prop} {a : Position X identity} {batch : Batch Change ℕ}

/-- The new entry on both nodes, with the rows its changeset makes of the old ones. -/
def Extended (a : Position X identity) (batch : Batch Change ℕ) (pair : Pair D) : Prop :=
  ∃ e next stage p s, (Steps (.write batch) a ⟨a.committed.push e next, .idle, stage⟩ ∧
    Agree ⟨a.committed.push e next, .idle, stage⟩ p s ∧ e.batch = batch ∧
    ∃ view rows, a.committed.view = .ok view ∧
      X.schema.capture view batch.changes = .ok (rows, e.changeset)) ∧ Here p s pair

theorem commit_fresh (alone : ∀ choice, allow choice → choice.others = [])
    (idle : a.stage.Idle) (ok : Admissible a.committed batch) :
    Triple allow (Crashed allow (.write batch) a) (Since .resolve a) (commit X batch)
      (fun _ => Extended a batch) (Failed allow (.write batch) a fun _ _ => False) := by
  refine .bind (within .refl (recover_spec alone)) fun _ => ?_
  refine .any fun h => .any fun stage => .any fun p => .any fun s =>
    .given fun ⟨resolved, agree, _⟩ => ?_
  obtain rfl : h = a.committed := resolved.committed_eq
  have steps : Steps (.write batch) a ⟨a.committed, .idle, stage⟩ := resolved.unsolicited
  have record := (resolved.primaryRecord_eq (by simp)).1
  have confirmed : ∀ r ∈ p.published, r.phase = .confirmed := by
    rw [agree.paired.primaryRecord, record]
    exact idle
  have absent : p.completedResult X batch = .ok none := by
    rw [Node.completedResult, agree.primary.identity_eq]
    exact agree.primary.store.completedResult_absent ⟨ok.scope, ok.named⟩ ok.fresh
  obtain ⟨e, ⟨rows, view, captured, replayed, digest⟩, prepares⟩ :=
    agree.primary.prepare_eq agree.paired.primaryRole confirmed agree.primaryView ok
  refine .known (primary_read alone steps agree fun _ => Call.reading_of absent) ?_
  obtain ⟨same, prepared, admitted, next, _⟩ := agree.prepare (prepares default) ok.fresh
  have request : Intent.write batch = .write e.batch := by rw [same]
  have accepted : ∀ random, ∃ p', (Call.prepare batch).run X p random = .ok (e, p') ∧
      Agree ⟨a.committed, .prepared e next, stage⟩ p' s := fun random =>
    ⟨_, prepares random, (agree.prepare (prepares random) ok.fresh).2.2.2.2⟩
  have rows_eq : s.store.data = p.store.data := agree.data_eq rfl
  have view_eq := agree.primaryView
  rw [← rows_eq] at replayed
  refine .known (primary_step alone steps agree accepted
    (.single (.prepare next request admitted))) ?_
  refine .any fun p' => .given fun agree => ?_
  have steps := steps.tail (.prepare next request admitted)
  refine .known (secondary_step alone steps agree
    (fun random => agree.stage_ready prepared replayed digest random) (.single .stage)) ?_
  refine .any fun s' => .given fun agree => ?_
  have steps := steps.tail .stage
  refine .known (primary_step alone steps agree (fun _ => agree.decide)
    (.single (.decide request))) ?_
  refine .any fun p'' => .given fun agree => ?_
  have steps := steps.tail (.decide request)
  refine .known (applyBoth_spec alone steps agree _) ?_
  refine .any fun p' => .any fun s' => .given fun ⟨steps, agree⟩ => ?_
  refine .known (primary_read alone steps agree (receipt_pushed agree)) ?_
  exact Triple.pure _ fun _ here =>
    ⟨e, next, stage, p', s', ⟨steps, agree, same, _, rows, view_eq, captured⟩, here⟩

end Pair

end TerrapiVault.Replication
