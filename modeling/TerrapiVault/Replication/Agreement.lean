import TerrapiVault.Replication.PublicationSteps
import TerrapiVault.Replication.Protocol

/-! Two nodes in a protocol state, and the node calls that move them from one state to the
next. -/
namespace TerrapiVault.Replication

variable {D : Type} {X : Engine D} {identity : Identity ℕ}

namespace Node.Sound

variable [DecidableEq D] {node : Node D} {h : History X.schema identity}
  {tail : Option (RefEntry D)} {e : RefEntry D} {random : Bytes32}

theorem decide_eq (sound : node.Sound h (some e)) (role : node.role = .primary)
    (prepared : e.state = .prepared) :
    node.decide X e.batch.operationId random =
      .ok (e.withState .decided, node.setLog (h.entries ++ [e.withState .decided]) random) := by
  have found := sound.store.byOperation_mem (sound.store.mem_log.mpr (.inr rfl))
  rw [Node.decide, ensure_of role, ok_bind, sound.admission_eq, ok_bind, found,
    ok_bind]
  dsimp only
  rw [if_pos prepared, sound.store.save_restated (by simp) random]
  rfl

theorem validate_linked (sound : node.Sound h tail) {a : Anchor D}
    (linked : a.Linked X.schema identity e) (state : State) :
    (e.withState state).validate X.schema node.identity = .ok () := by
  rw [sound.identity_eq]
  exact Entry.validate_eq_ok.mpr ⟨linked.identity_eq, linked.digest_eq⟩

theorem apply_eq (sound : node.Sound h (some e)) (idle : node.Idle) {state : State}
    (decided : state ≠ .prepared) (allowed : node.role = .secondary ∨ e.state = .decided)
    {view : View} (replayed : X.schema.replay node.store.data e.changeset = .ok view)
    (after : X.schema.viewDigest view = e.after) :
    node.apply X (e.withState state) random =
      .ok ((), node.finishTail X h e view
        (if node.role = .secondary ∧ node.store.readiness = some h.checkpoint then
          some (h.push e (sound.store.next e rfl)).checkpoint
        else node.store.readiness) random) := by
  have linked := (sound.store.next e rfl).linked
  have valid := sound.validate_linked linked state
  have pending := sound.store.pending e rfl
  have found : node.store.bySequence X.schema (e.withState state).sequence = .ok (some e) :=
    sound.store.bySequence_mem (sound.store.mem_log.mpr (.inr rfl))
  have base : X.schema.viewDigest node.store.data = e.before :=
    sound.store.data.trans linked.before_eq.symm
  have replay : X.schema.replayData node.store.data e.before e.after e.changeset = .ok view :=
    Schema.replayData_eq_ok.mpr ⟨base, replayed, after⟩
  have saved := sound.store.save_applied view random
  have rep := sound.store.finish after random
  have shown : (e.withState state).state ≠ .prepared := decided
  have same : e.digest = (e.withState state).digest := rfl
  rw [Node.apply, valid, ok_bind, ensure_of shown, ok_bind, sound.admission_eq,
    ok_bind, idle.eq, ok_bind, found, ok_bind]
  dsimp only
  rw [ensure_of same, ok_bind, if_neg pending, ensure_of allowed, ok_bind,
    ensure_of base, ok_bind, sound.readVerified_eq, ok_bind, replay,
    ok_bind, saved, ok_bind]
  by_cases ready : node.role = .secondary ∧ node.store.readiness = some h.checkpoint
  · rw [decide_eq_true ready, keepVerified, if_pos rfl, sound.identity_eq,
      rep.advanceReadiness_eq, if_pos ready, finishTail, sound.identity_eq]
    rfl
  · rw [decide_eq_false ready, keepVerified, if_neg (by simp), if_neg ready]
    rfl

theorem apply_again (sound : node.Sound h tail) (idle : node.Idle) (mem : e ∈ h.entries)
    {state : State} (decided : state ≠ .prepared) :
    node.apply X (e.withState state) random = .ok ((), node) := by
  obtain ⟨position, linked⟩ := h.chained.linked mem
  have valid := sound.validate_linked linked state
  have found : node.store.bySequence X.schema (e.withState state).sequence = .ok (some e) :=
    sound.store.bySequence_mem (sound.store.mem_log.mpr (.inl mem))
  have shown : (e.withState state).state ≠ .prepared := decided
  have same : e.digest = (e.withState state).digest := rfl
  rw [Node.apply, valid, ok_bind, ensure_of shown, ok_bind, sound.admission_eq,
    ok_bind, idle.eq, ok_bind, found, ok_bind]
  dsimp only
  rw [ensure_of same, ok_bind, if_pos (h.applied e mem), sound.store.validateEntry_entry mem]
  rfl

theorem abort_eq (sound : node.Sound h (some e)) (idle : node.Idle)
    (prepared : e.state = .prepared) :
    node.abort X e.batch.operationId random = .ok ((), node.setLog h.entries random) := by
  have found := sound.store.byOperation_mem (sound.store.mem_log.mpr (.inr rfl))
  have last : node.abortable X e = .ok true := by
    rw [abortable, if_pos prepared, sound.store.tail_some rfl]
    simp
  rw [Node.abort, sound.admission_eq, ok_bind, idle.eq, ok_bind, found,
    ok_bind]
  dsimp only
  rw [last, ok_bind, ensure_of rfl, sound.filter_tail]
  rfl

theorem stage_again (sound : node.Sound h tail) (role : node.role = .secondary)
    (idle : node.Idle) (mem : e ∈ node.store.log) {state : State} :
    node.stage X (e.withState state) random = .ok ((), node) := by
  obtain ⟨position, linked⟩ := sound.store.chained.linked mem
  have valid := sound.validate_linked linked state
  have same : e.digest = (e.withState state).digest := rfl
  have fits : checkEntrySize X.schema (e.withState state) = .ok () :=
    (checkEntrySize_withState X.schema e state).trans linked.fits
  have found : node.store.bySequence X.schema (e.withState state).sequence = .ok (some e) :=
    sound.store.bySequence_mem mem
  rw [Node.stage, ensure_of role, ok_bind, valid, ok_bind, fits, ok_bind,
    sound.admission_eq, ok_bind, idle.eq, ok_bind, found, ok_bind]
  dsimp only
  rw [ensure_of same]
  rfl

theorem confirmCheckpoint_eq (sound : node.Sound h none) (role : node.role = .secondary)
    (idle : node.Idle) : node.confirmCheckpoint X h.checkpoint =
      .ok ((), { node with store := { node.store with readiness := some h.checkpoint } }) := by
  have scope : node.role = .secondary ∧ h.checkpoint.identity = node.identity :=
    ⟨role, sound.identity_eq.symm⟩
  rw [Node.confirmCheckpoint, ensure_of scope, ok_bind, idle.eq, ok_bind, sound.current_eq,
    ok_bind]
  dsimp only
  rw [ensure_of rfl]
  rfl

end Node.Sound

/-- The part of a node the write path never touches. -/
def Node.frame (node : Node D) : Role × Option (SnapshotProgress D) ×
    Option (Materialized.Progress D) × Option (Publication.Record D) ×
    Option (Checkpoint ℕ D) × Bytes32 :=
  (node.role, node.snapshotTransfer, node.materializedTransfer, node.published, node.store.base,
    node.store.generation)

/-- The head of a node that has kept its journal from the first entry. -/
def Node.currentHead (node : Node D) : JournalHead ℕ D :=
  ⟨node.store.base, node.identity, node.store.revision, node.store.generation,
    node.store.log.length⟩

def Node.currentSummary (X : Engine D) (node : Node D) : Summary D :=
  ⟨Node.schemaContract X, none, node.currentHead, node.role, X.cipherVersion, 2, "wal"⟩

namespace Node.Sound

variable {node : Node D} {h : History X.schema identity}
  {tail : Option (RefEntry D)}

theorem currentHead_eq (sound : node.Sound h tail) (origin : h.origin.sequence = 0) :
    node.journalHead = .ok node.currentHead := by
  have total := sound.store.log_length
  rw [origin, Nat.zero_add] at total
  rw [sound.journalHead_eq, currentHead, sound.identity_eq, total]

theorem currentSummary_eq (sound : node.Sound h tail) (origin : h.origin.sequence = 0) :
    node.summary X = .ok (node.currentSummary X) :=
  sound.summary_eq (sound.currentHead_eq origin)

theorem page_eq [DecidableEq D] (sound : node.Sound h tail) (origin : h.origin.sequence = 0)
    {after limit : ℕ} (positive : 0 < limit) (small : limit ≤ maxPageEntries)
    (low : baseFloor node.store.base ≤ after) (high : after ≤ node.store.log.length) :
    ∃ k, (after < node.store.log.length → 0 < k) ∧
      node.journalPage X node.currentHead after limit =
        .ok ⟨node.currentHead, after, (node.store.log.drop after).take k⟩ ∧
      JournalPage.validate X.schema
        ⟨node.currentHead, after, (node.store.log.drop after).take k⟩ node.currentHead after limit =
        .ok () := by
  have total := sound.store.log_length
  rw [origin, Nat.zero_add] at total
  have found : node.store.head identity = .ok node.currentHead := by
    rw [← sound.identity_eq]
    exact sound.currentHead_eq origin
  obtain ⟨k, _, progress, page, valid⟩ :=
    sound.store.journalPage_eq found positive small low (by omega)
  rw [origin, Nat.sub_zero] at page valid
  refine ⟨k, fun more => progress (by omega), ?_, valid⟩
  rw [journalPage, sound.identity_eq]
  exact page

end Node.Sound

namespace Protocol

open Publication (Stage Proposal)

/-- Roles, transfers and publication of the two nodes. -/
structure Paired (stage : Stage D) (p s : Node D) : Prop where
  primaryRole : p.role = .primary
  secondaryRole : s.role = .secondary
  primaryIdle : p.Idle
  secondaryIdle : s.Idle
  primaryRecord : p.published = stage.primaryRecord
  secondaryRecord : s.published = stage.secondaryRecord
  primaryBase : p.store.base = stage.primaryBase
  secondaryBase : s.store.base = stage.secondaryBase
  generations : ∀ r ∈ stage.proposal,
    r.primaryGeneration = p.store.generation ∧ r.secondaryGeneration = s.store.generation

theorem Paired.congr {stage : Stage D} {p p' s s' : Node D} (paired : Paired stage p s)
    (first : p'.frame = p.frame) (second : s'.frame = s.frame) : Paired stage p' s' := by
  simp only [Node.frame, Prod.mk.injEq] at first second
  obtain ⟨role, snapshot, materialized, published, base, generation⟩ := first
  obtain ⟨role', snapshot', materialized', published', base', generation'⟩ := second
  refine ⟨role.trans paired.primaryRole, role'.trans paired.secondaryRole, ?_, ?_,
    published.trans paired.primaryRecord, published'.trans paired.secondaryRecord,
    base.trans paired.primaryBase, base'.trans paired.secondaryBase, ?_⟩
  · rw [Node.Idle, snapshot, materialized]
    exact paired.primaryIdle
  · rw [Node.Idle, snapshot', materialized']
    exact paired.secondaryIdle
  · rw [generation, generation']
    exact paired.generations

structure Agree (a : Position X identity) (p s : Node D) : Prop where
  paired : Paired a.stage p s
  primary : p.Sound a.history a.phase.primaryTail
  secondary : s.Sound a.phase.secondary a.phase.secondaryTail
  origin : a.history.origin = Anchor.genesis X.schema identity
  primaryView : a.history.view = .ok p.store.data
  secondaryView : a.phase.secondary.view = .ok s.store.data
  replayable : ∀ e ∈ a.phase.secondaryTail, ∃ view,
    X.schema.replay s.store.data e.changeset = .ok view ∧ X.schema.viewDigest view = e.after
  quiet : a.stage.Idle ∨ a.phase = .idle
  pending : ∀ r, a.stage = .captured r → r.checkpoint = a.history.checkpoint ∧ p.WithinQuota X

theorem Stage.Idle.ne_captured {stage : Stage D} (idle : stage.Idle) (r : Proposal D) :
    stage ≠ .captured r := by
  intro captured
  subst captured
  simp [Stage.Idle, Stage.primaryRecord] at idle

theorem agree_create (X : Engine D) {identity : Identity ℕ}
    (supported : identity.schema = 1 ∧ 0 < identity.epoch)
    (generation revision generation' revision' : Bytes32) :
    Agree (Position.initial X identity) (Node.create .primary identity generation revision)
      (Node.create .secondary identity generation' revision') where
  paired :=
    { primaryRole := rfl
      secondaryRole := rfl
      primaryIdle := by simp [Node.Idle, Node.create]
      secondaryIdle := by simp [Node.Idle, Node.create]
      primaryRecord := rfl
      secondaryRecord := rfl
      primaryBase := rfl
      secondaryBase := rfl
      generations := by simp [Position.initial, Stage.proposal] }
  primary := Node.create_sound X .primary supported generation revision
  secondary := Node.create_sound X .secondary supported generation' revision'
  origin := rfl
  primaryView := rfl
  secondaryView := rfl
  replayable := by simp [Position.initial, Phase.secondaryTail]
  quiet := .inr rfl
  pending := by simp [Position.initial]

namespace Agree

variable {a : Position X identity} {p p' s s' : Node D} {h : History X.schema identity}
  {phase : Phase h} {e : RefEntry D} {next : h.Next e} {stage : Stage D} {random : Bytes32}

section

variable (agree : Agree a p s)
include agree

theorem primaryOrigin : a.history.origin.sequence = 0 := by
  rw [agree.origin]
  rfl

theorem secondaryOrigin : a.phase.secondary.origin.sequence = 0 := by
  rw [← a.history_grows.origin_eq]
  exact agree.primaryOrigin

theorem primaryLength :
    p.store.log.length = a.history.length + a.phase.primaryTail.toList.length := by
  have total := agree.primary.store.log_length
  rwa [agree.primaryOrigin, Nat.zero_add] at total

theorem secondaryLength :
    s.store.log.length = a.phase.secondary.length + a.phase.secondaryTail.toList.length := by
  have total := agree.secondary.store.log_length
  rwa [agree.secondaryOrigin, Nat.zero_add] at total

theorem idle (busy : a.phase ≠ .idle) : a.stage.Idle :=
  agree.quiet.resolve_right busy

theorem data_eq (behind : a.phase.secondary = a.history) : s.store.data = p.store.data := by
  have view := agree.secondaryView
  rw [behind, agree.primaryView] at view
  exact (Except.ok.inj view).symm

end

/-- A call of the write path, as far as the two nodes are concerned. -/
theorem moved (agree : Agree ⟨h, phase, stage⟩ p s) (admitted : stage.Idle)
    {h' : History X.schema identity} {phase' : Phase h'} (origin : h'.origin = h.origin)
    (first : p'.frame = p.frame) (second : s'.frame = s.frame)
    (primary : p'.Sound h' phase'.primaryTail) (primaryView : h'.view = .ok p'.store.data)
    (secondary : s'.Sound phase'.secondary phase'.secondaryTail)
    (secondaryView : phase'.secondary.view = .ok s'.store.data)
    (replayable : ∀ e ∈ phase'.secondaryTail, ∃ view,
      X.schema.replay s'.store.data e.changeset = .ok view ∧ X.schema.viewDigest view = e.after) :
    Agree ⟨h', phase', stage⟩ p' s' where
  paired := agree.paired.congr first second
  primary := primary
  secondary := secondary
  origin := origin.trans agree.origin
  primaryView := primaryView
  secondaryView := secondaryView
  replayable := replayable
  quiet := .inl admitted
  pending := fun r captured => absurd captured (Stage.Idle.ne_captured admitted r)

variable [DecidableEq D]

theorem prepare (agree : Agree ⟨h, .idle, stage⟩ p s) {batch : Batch Change ℕ}
    (ok : p.prepare X batch random = .ok (e, p')) (absent : batch.operationId ∉ h.operations) :
    e.batch = batch ∧ e.state = .prepared ∧ stage.Idle ∧
      ∃ next : h.Next e, Agree ⟨h, .prepared e next, stage⟩ p' s := by
  obtain ⟨_, _, rfl, ⟨known, _⟩ | ⟨_, confirmed, prepared, next, rfl⟩⟩ :=
    agree.primary.prepare_ok ok
  · rcases agree.primary.store.mem_log.mp known with old | new
    · exact absurd (h.mem_operations old) absent
    · simp [Phase.primaryTail] at new
  · rw [agree.paired.primaryRecord] at confirmed
    have same : e.withState .prepared = e := by rw [← prepared]; rfl
    refine ⟨rfl, prepared, confirmed, next, ?_⟩
    refine agree.moved confirmed rfl rfl rfl ?_ agree.primaryView agree.secondary
      agree.secondaryView (by simp [Phase.secondaryTail])
    simp only [Phase.primaryTail, same]
    exact agree.primary.append next (by simp [prepared])

theorem staged (agree : Agree ⟨h, .prepared e next, stage⟩ p s) {u : Unit}
    {entry : RefEntry D}
    (same : entry.withState .prepared = e.withState .prepared)
    (ok : s.stage X entry random = .ok (u, s')) :
    Agree ⟨h, .staged e next, stage⟩ p s' := by
  have admitted := agree.idle (by simp)
  have position : (entry.withState .prepared).sequence = (e.withState .prepared).sequence :=
    congrArg Entry.sequence same
  obtain ⟨_, ⟨old, known, sequence, _⟩ | ⟨_, _, _, _, _, replay, rfl⟩⟩ := agree.secondary.stage_ok ok
  · -- the secondary holds no row at this sequence yet
    have inside := agree.secondary.store.consecutive.bounds known
    have total := agree.secondary.store.log_length
    have after := next.linked.sequence_eq
    rw [h.anchor_sequence] at after
    simp only [Phase.secondary, Phase.secondaryTail, Option.toList_none, List.length_nil]
      at total inside
    simp only [Entry.withState] at position
    omega
  · refine agree.moved admitted rfl rfl rfl agree.primary agree.primaryView ?_ agree.secondaryView ?_
    · simp only [Phase.secondaryTail, same]
      exact agree.secondary.append (next.withState .prepared) (by simp [Entry.withState])
    · intro e' tail
      obtain rfl := Option.some.inj tail
      rw [← same]
      exact replay

theorem decide (agree : Agree ⟨h, .staged e next, stage⟩ p s) :
    ∃ p', p.decide X e.batch.operationId random = .ok (e.withState .decided, p') ∧
      Agree ⟨h, .decided e next, stage⟩ p' s := by
  have admitted := agree.idle (by simp)
  refine ⟨_, agree.primary.decide_eq agree.paired.primaryRole rfl, ?_⟩
  exact agree.moved admitted rfl rfl rfl (agree.primary.restate (by simp)) agree.primaryView
    agree.secondary agree.secondaryView agree.replayable

theorem land (agree : Agree ⟨h, .decided e next, stage⟩ p s) :
    ∃ s', s.apply X (e.withState .decided) random = .ok ((), s') ∧
      Agree ⟨h, .landed e next, stage⟩ p s' := by
  have admitted := agree.idle (by simp)
  obtain ⟨view, replayed, after⟩ := agree.replayable _ rfl
  have applied : s.apply X (e.withState .decided) random = _ := agree.secondary.apply_eq
    agree.paired.secondaryIdle (by simp) (.inl agree.paired.secondaryRole) replayed after
  refine ⟨_, applied, ?_⟩
  refine agree.moved admitted rfl rfl rfl agree.primary agree.primaryView
    (agree.secondary.finish after _) ?_ (by simp [Phase.secondaryTail])
  exact (History.push_view next agree.secondaryView).trans replayed

theorem finish (agree : Agree ⟨h, .landed e next, stage⟩ p s) :
    ∃ p', p.apply X (e.withState .decided) random = .ok ((), p') ∧
      Agree ⟨h.push e next, .idle, stage⟩ p' s := by
  have admitted := agree.idle (by simp)
  have replayed : X.schema.replay p.store.data e.changeset = .ok s.store.data := by
    rw [← History.push_view next agree.primaryView]
    exact agree.secondaryView
  have after : X.schema.viewDigest s.store.data = e.after := by
    have data := agree.secondary.store.data
    simp only [Phase.secondary, History.push_anchor, Anchor.advance] at data
    exact data
  have applied : p.apply X (e.withState .decided) random = _ := agree.primary.apply_eq
    agree.paired.primaryIdle (by simp) (.inr rfl) replayed after
  refine ⟨_, applied, ?_⟩
  refine agree.moved admitted rfl rfl rfl (agree.primary.finish after _) ?_ agree.secondary
    agree.secondaryView (by simp [Phase.secondaryTail])
  exact (History.push_view next agree.primaryView).trans replayed

theorem withdraw (agree : Agree ⟨h, .staged e next, stage⟩ p s) :
    ∃ s', s.abort X e.batch.operationId random = .ok ((), s') ∧
      Agree ⟨h, .prepared e next, stage⟩ p s' := by
  have admitted := agree.idle (by simp)
  refine ⟨_, agree.secondary.abort_eq agree.paired.secondaryIdle rfl, ?_⟩
  exact agree.moved admitted rfl rfl rfl agree.primary agree.primaryView agree.secondary.remove
    agree.secondaryView (by simp [Phase.secondaryTail])

theorem withdrawn (agree : Agree ⟨h, .prepared e next, stage⟩ p s) :
    s.abort X e.batch.operationId random = .ok ((), s) := by
  have absent : ∀ row ∈ s.store.log, row.batch.operationId ≠ e.batch.operationId := by
    intro row mem same
    rcases agree.secondary.store.mem_log.mp mem with old | new
    · exact next.fresh (same ▸ h.mem_operations old)
    · simp [Phase.secondaryTail] at new
  rw [Node.abort, agree.secondary.admission_eq, ok_bind, agree.paired.secondaryIdle.eq, ok_bind,
    agree.secondary.store.byOperation_absent absent]
  rfl

theorem abort (agree : Agree ⟨h, .prepared e next, stage⟩ p s) :
    ∃ p', p.abort X e.batch.operationId random = .ok ((), p') ∧
      Agree ⟨h, .idle, stage⟩ p' s := by
  have admitted := agree.idle (by simp)
  refine ⟨_, agree.primary.abort_eq agree.paired.primaryIdle rfl, ?_⟩
  exact agree.moved admitted rfl rfl rfl agree.primary.remove agree.primaryView agree.secondary
    agree.secondaryView (by simp [Phase.secondaryTail])

omit [DecidableEq D] in
/-- Read admission is no part of the protocol state. -/
theorem confirm (agree : Agree a p s) (readiness : Option (Checkpoint ℕ D)) :
    Agree a p { s with store := { s.store with readiness := readiness } } where
  paired := agree.paired.congr rfl rfl
  primary := agree.primary
  secondary := agree.secondary.confirm readiness
  origin := agree.origin
  primaryView := agree.primaryView
  secondaryView := agree.secondaryView
  replayable := agree.replayable
  quiet := agree.quiet
  pending := agree.pending

end Agree

end Protocol

end TerrapiVault.Replication
