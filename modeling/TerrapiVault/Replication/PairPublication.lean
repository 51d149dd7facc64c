import TerrapiVault.Replication.PairRecovery

/-! Publication and activation of a base over a pair. -/
namespace TerrapiVault.Replication

variable {D : Type} {X : Engine D} {identity : Identity ℕ}

namespace Publication.Stage

/-! The calls of the two commands, each of which may already have taken effect. -/

def mirror : Stage D → Stage D
  | .captured r => .mirrored r
  | stage => stage

def acknowledge : Stage D → Stage D
  | .mirrored r => .acknowledged r
  | stage => stage

def confirm : Stage D → Stage D
  | .acknowledged r => .confirmed r
  | stage => stage

def follow : Stage D → Stage D
  | .confirmed r => .following r
  | stage => stage

variable {stage : Stage D} {r : Proposal D} {record : Record D}

theorem proposal_eq (copied : stage.secondaryRecord = some record) :
    stage.proposal = some record.proposal := by
  cases stage with
  | vacant => simp [secondaryRecord] at copied
  | captured r => simp [secondaryRecord] at copied
  | _ r => exact congrArg (Option.map Record.proposal) copied

theorem acknowledge_frame (stage : Stage D) :
    stage.acknowledge.proposal = stage.proposal ∧
      stage.acknowledge.primaryRecord = stage.primaryRecord ∧
      stage.acknowledge.primaryBase = stage.primaryBase ∧
      stage.acknowledge.secondaryBase = stage.secondaryBase := by
  cases stage <;> exact ⟨rfl, rfl, rfl, rfl⟩

theorem acknowledge_record (copied : stage.secondaryRecord = some record) :
    stage.acknowledge.secondaryRecord = some ⟨record.proposal, .confirmed⟩ := by
  cases stage with
  | vacant => simp [secondaryRecord] at copied
  | captured r => simp [secondaryRecord] at copied
  | _ r =>
    obtain rfl := Option.some.inj copied
    rfl

theorem confirm_frame (stage : Stage D) :
    stage.confirm.proposal = stage.proposal ∧
      stage.confirm.secondaryRecord = stage.secondaryRecord ∧
      stage.confirm.primaryBase = stage.primaryBase ∧
      stage.confirm.secondaryBase = stage.secondaryBase := by
  cases stage <;> exact ⟨rfl, rfl, rfl, rfl⟩

theorem confirm_record (copied : stage.secondaryRecord = some ⟨r, .confirmed⟩) :
    stage.confirm.primaryRecord = some ⟨r, .confirmed⟩ := by
  cases stage with
  | acknowledged r => exact copied
  | confirmed r => exact copied
  | following r => exact copied
  | active r => exact copied
  | _ => simp [secondaryRecord] at copied

/-- The secondary keeps a copy of whatever the primary has confirmed. -/
theorem secondary_of_confirmed (confirmed : stage.primaryRecord = some ⟨r, .confirmed⟩) :
    stage.secondaryRecord = some ⟨r, .confirmed⟩ := by
  cases stage with
  | confirmed r => exact confirmed
  | following r => exact confirmed
  | active r => exact confirmed
  | _ => simp [primaryRecord] at confirmed

theorem follow_eq (confirmed : stage.primaryRecord = some ⟨r, .confirmed⟩) :
    stage.follow = .following r ∨ stage.follow = .active r := by
  cases stage with
  | confirmed r' => simp_all [primaryRecord, follow]
  | following r' => simp_all [primaryRecord, follow]
  | active r' => simp_all [primaryRecord, follow]
  | _ => simp [primaryRecord] at confirmed

theorem followed_frame (followed : stage = .following r ∨ stage = .active r) :
    stage.proposal = some r ∧ stage.secondaryBase = some r.checkpoint := by
  rcases followed with rfl | rfl <;> exact ⟨rfl, rfl⟩

/-- A copy on the secondary is made after the capture on the primary. -/
theorem ne_captured_of_copy (copied : stage.secondaryRecord = some record) (r : Proposal D) :
    stage ≠ .captured r := by
  intro captured
  subst captured
  simp [secondaryRecord] at copied

end Publication.Stage

namespace Protocol

open Publication (Stage Proposal Record)

section Moves

variable {h : History X.schema identity} {phase : Phase h} {stage : Stage D}

theorem Steps.mirror : Steps .resolve ⟨h, phase, stage⟩ ⟨h, phase, stage.mirror⟩ := by
  cases stage with
  | captured r => exact .single .mirror
  | _ => exact .refl

theorem Steps.acknowledge : Steps .resolve ⟨h, phase, stage⟩ ⟨h, phase, stage.acknowledge⟩ := by
  cases stage with
  | mirrored r => exact .single .acknowledge
  | _ => exact .refl

theorem Steps.confirm : Steps .publish ⟨h, phase, stage⟩ ⟨h, phase, stage.confirm⟩ := by
  cases stage with
  | acknowledged r => exact .single (.confirm rfl)
  | _ => exact .refl

theorem Steps.follow : Steps .resolve ⟨h, phase, stage⟩ ⟨h, phase, stage.follow⟩ := by
  cases stage with
  | confirmed r => exact .single .follow
  | _ => exact .refl

theorem Steps.activate {r : Proposal D} (followed : stage = .following r ∨ stage = .active r) :
    Steps .publish ⟨h, phase, stage⟩ ⟨h, phase, .active r⟩ := by
  rcases followed with rfl | rfl
  · exact .single (.activate rfl)
  · exact .refl

end Moves

namespace Agree

variable {a : Position X identity} {p p' s s' : Node D} {h : History X.schema identity}
  {phase : Phase h} {stage : Stage D} {r : Proposal D} {random : Bytes32}

theorem published (agree : Agree a p s) (known : a.stage.proposal = some r) :
    ∃ phase, p.published = some ⟨r, phase⟩ := by
  rw [agree.paired.primaryRecord]
  obtain ⟨h, phase, stage⟩ := a
  cases stage with
  | vacant => simp [Stage.proposal] at known
  | _ r' =>
    obtain rfl := Option.some.inj known
    exact ⟨_, rfl⟩

theorem bounds (agree : Agree a p s) (known : a.stage.proposal = some r) :
    p.Bound r ∧ s.Bound r := by
  obtain ⟨phase, published⟩ := agree.published known
  have base := (agree.primary.published_base published).2.2
  have generations := agree.paired.generations r known
  have ours : r.checkpoint.identity = identity ∧ r.checkpoint.format = 1 := by
    rw [base]
    exact ⟨rfl, rfl⟩
  refine ⟨⟨ours.1.trans agree.primary.identity_eq.symm, ours.2, ?_⟩,
    ⟨ours.1.trans agree.secondary.identity_eq.symm, ours.2, ?_⟩⟩
  · rw [agree.paired.primaryRole]
    exact generations.1.symm
  · rw [agree.paired.secondaryRole]
    exact generations.2.symm

/-- Publication changes neither the history nor the rows. -/
theorem restage (agree : Agree ⟨h, phase, stage⟩ p s) {stage' : Stage D}
    (paired : Paired stage' p' s') (primary : p'.Sound h phase.primaryTail)
    (secondary : s'.Sound phase.secondary phase.secondaryTail)
    (rows : p'.store.data = p.store.data) (rows' : s'.store.data = s.store.data)
    (quiet : stage'.Idle ∨ phase = .idle)
    (pending : ∀ r, stage' = .captured r → r.checkpoint = h.checkpoint ∧ p'.WithinQuota X) :
    Agree ⟨h, phase, stage'⟩ p' s' where
  paired := paired
  primary := primary
  secondary := secondary
  origin := agree.origin
  primaryView := by
    rw [rows]
    exact agree.primaryView
  secondaryView := by
    rw [rows']
    exact agree.secondaryView
  replayable := by
    rw [rows']
    exact agree.replayable
  quiet := quiet
  pending := pending

theorem quota_eq (agree : Agree ⟨h, .idle, stage⟩ p s) :
    s.publicationQuota X = p.publicationQuota X := by
  have data : s.store.data = p.store.data := agree.data_eq rfl
  have receipts : s.store.receipts = p.store.receipts :=
    agree.secondary.store.receipts_eq.trans agree.primary.store.receipts_eq.symm
  unfold Node.publicationQuota
  rw [data, receipts]

variable [DecidableEq D]

theorem capture (agree : Agree ⟨h, .idle, .vacant⟩ p s) (bound : p.Bound r)
    (checkpoint : r.checkpoint = h.checkpoint) (peer : r.secondaryGeneration = s.store.generation)
    (quota : p.WithinQuota X) :
    p.captureBase X r = .ok (⟨r, .captured⟩, p.captured r) ∧
      Agree ⟨h, .idle, .captured r⟩ (p.captured r) s := by
  have paired := agree.paired
  have generation := bound.generation_eq
  rw [paired.primaryRole] at generation
  refine ⟨agree.primary.captureBase_new bound paired.primaryRecord paired.primaryIdle checkpoint
    quota, agree.restage ?_ (agree.primary.capture paired.primaryRecord paired.primaryIdle checkpoint)
      agree.secondary rfl rfl (.inr rfl) ?_⟩
  · refine { paired with primaryRecord := rfl, generations := ?_ }
    rintro r' ⟨⟩
    exact ⟨generation.symm, peer⟩
  · rintro r' ⟨⟩
    exact ⟨checkpoint, quota⟩

theorem mirror (agree : Agree ⟨h, phase, stage⟩ p s) (known : stage.proposal = some r) :
    ∃ record s', (stage.mirror.secondaryRecord = some record ∧ record.proposal = r) ∧
      s.captureBase X r = .ok (record, s') ∧ Agree ⟨h, phase, stage.mirror⟩ p s' := by
  have bound := (agree.bounds known).2
  have paired := agree.paired
  cases stage with
  | vacant => simp [Stage.proposal] at known
  | captured r' =>
    obtain rfl := Option.some.inj known
    obtain rfl : phase = .idle :=
      agree.quiet.resolve_left fun idle => Stage.Idle.ne_captured idle r' rfl
    obtain ⟨checkpoint, quota⟩ := agree.pending r' rfl
    have quota : s.WithinQuota X := by
      rw [Node.WithinQuota, agree.quota_eq]
      exact quota
    refine ⟨_, _, ⟨rfl, rfl⟩, agree.secondary.captureBase_new bound paired.secondaryRecord
      paired.secondaryIdle checkpoint quota, agree.restage ?_ agree.primary
        (agree.secondary.capture paired.secondaryRecord paired.secondaryIdle checkpoint)
        rfl rfl (.inr rfl) (by simp [Stage.mirror])⟩
    exact { paired with secondaryRecord := rfl }
  | _ r' =>
    obtain rfl := Option.some.inj known
    exact ⟨_, s, ⟨rfl, rfl⟩,
      agree.secondary.captureBase_again bound paired.secondaryRecord rfl, agree⟩

theorem acknowledge (agree : Agree ⟨h, phase, stage⟩ p s) {record : Record D}
    (copied : stage.secondaryRecord = some record) :
    ∃ s', s.confirmBase X record.proposal = .ok (⟨record.proposal, .confirmed⟩, s') ∧
      Agree ⟨h, phase, stage.acknowledge⟩ p s' := by
  have paired := agree.paired
  have published : s.published = some record := paired.secondaryRecord.trans copied
  have known := Stage.proposal_eq copied
  obtain ⟨proposal, primaryRecord, primaryBase, secondaryBase⟩ := stage.acknowledge_frame
  have acknowledged := Stage.acknowledge_record copied
  refine ⟨_, agree.secondary.confirmBase_eq (agree.bounds known).2 published rfl,
    agree.restage ?_ agree.primary (agree.secondary.setPhase published) rfl rfl ?_ ?_⟩
  · exact { paired with
      primaryRecord := paired.primaryRecord.trans primaryRecord.symm
      secondaryRecord := acknowledged.symm
      primaryBase := paired.primaryBase.trans primaryBase.symm
      secondaryBase := paired.secondaryBase.trans secondaryBase.symm
      generations := proposal ▸ paired.generations }
  · rw [Stage.Idle, primaryRecord]
    exact agree.quiet
  · exact fun r captured => absurd captured (Stage.ne_captured_of_copy acknowledged r)

theorem confirmBase (agree : Agree ⟨h, phase, stage⟩ p s)
    (copied : stage.secondaryRecord = some ⟨r, .confirmed⟩) :
    ∃ p', p.confirmBase X r = .ok (⟨r, .confirmed⟩, p') ∧
      Agree ⟨h, phase, stage.confirm⟩ p' s := by
  have paired := agree.paired
  have known : stage.proposal = some r := Stage.proposal_eq copied
  obtain ⟨phase', published⟩ := agree.published known
  obtain ⟨proposal, secondaryRecord, primaryBase, secondaryBase⟩ := stage.confirm_frame
  have confirmed := Stage.confirm_record copied
  refine ⟨_, agree.primary.confirmBase_eq (agree.bounds known).1 published rfl,
    agree.restage ?_ (agree.primary.setPhase published) agree.secondary rfl rfl (.inl ?_) ?_⟩
  · exact { paired with
      primaryRecord := confirmed.symm
      secondaryRecord := paired.secondaryRecord.trans secondaryRecord.symm
      primaryBase := paired.primaryBase.trans primaryBase.symm
      secondaryBase := paired.secondaryBase.trans secondaryBase.symm
      generations := proposal ▸ paired.generations }
  · rw [Stage.Idle, confirmed]
    simp
  · exact fun r captured => absurd captured
      (Stage.ne_captured_of_copy (secondaryRecord.trans copied) r)

theorem follow (agree : Agree ⟨h, .idle, stage⟩ p s)
    (confirmed : stage.primaryRecord = some ⟨r, .confirmed⟩) :
    ∃ s', s.activatePublishedBase X r random = .ok ((), s') ∧
      Agree ⟨h, .idle, stage.follow⟩ p s' := by
  have paired := agree.paired
  have copied := Stage.secondary_of_confirmed confirmed
  have bound := (agree.bounds (Stage.proposal_eq copied)).2
  have published := paired.secondaryRecord.trans copied
  cases stage with
  | confirmed r' =>
    obtain rfl := congrArg Record.proposal (Option.some.inj confirmed)
    have vacant : ∀ b ∈ s.store.base, b.sequence < r'.checkpoint.sequence := by
      rw [paired.secondaryBase]
      simp [Stage.secondaryBase]
    refine ⟨_, agree.secondary.activate_eq bound published vacant paired.secondaryIdle,
      agree.restage ?_ agree.primary (agree.secondary.rebase published bound) rfl rfl (.inr rfl)
        (by simp [Stage.follow])⟩
    exact { paired with secondaryBase := rfl }
  | following r' =>
    obtain rfl := congrArg Record.proposal (Option.some.inj confirmed)
    exact ⟨s, agree.secondary.activate_again bound published paired.secondaryBase, agree⟩
  | active r' =>
    obtain rfl := congrArg Record.proposal (Option.some.inj confirmed)
    exact ⟨s, agree.secondary.activate_again bound published paired.secondaryBase, agree⟩
  | _ => simp [Stage.primaryRecord] at confirmed

theorem activate (agree : Agree ⟨h, .idle, stage⟩ p s)
    (followed : stage = .following r ∨ stage = .active r) :
    ∃ p', p.activatePublishedBase X r random = .ok ((), p') ∧
      Agree ⟨h, .idle, .active r⟩ p' s := by
  have paired := agree.paired
  rcases followed with rfl | rfl
  · have bound := (agree.bounds rfl).1
    have vacant : ∀ b ∈ p.store.base, b.sequence < r.checkpoint.sequence := by
      rw [paired.primaryBase]
      simp [Stage.primaryBase]
    refine ⟨_, agree.primary.activate_eq bound paired.primaryRecord vacant paired.primaryIdle,
      agree.restage ?_ (agree.primary.rebase paired.primaryRecord bound) agree.secondary rfl rfl
        (.inr rfl) (by simp)⟩
    exact { paired with primaryBase := rfl }
  · exact ⟨p, agree.primary.activate_again (agree.bounds rfl).1 paired.primaryRecord
      paired.primaryBase, agree⟩

end Agree

end Protocol

namespace Pair

open CrashLogic Protocol
open Publication (Stage Proposal Record)

variable [DecidableEq D]

section Spec

variable {allow : Choice D → Prop} {intent : Intent} {a b : Position X identity}
  {refusal : Fault → Pair D → Prop} {p s : Node D} {h : History X.schema identity}
  {stage : Stage D} {r : Proposal D}

theorem status_primary (agree : Agree b p s) (random : Bytes32) :
    Call.baseStatus.run X p random = .ok (p.published, p) :=
  Call.reading_of agree.primary.validatePublication_eq

theorem status_secondary (agree : Agree b p s) (random : Bytes32) :
    Call.baseStatus.run X s random = .ok (s.published, s) :=
  Call.reading_of agree.secondary.validatePublication_eq

variable (alone : ∀ choice, allow choice → choice.others = [])
include alone

theorem sameGenerations_spec (steps : Steps intent a b) (agree : Agree b p s)
    (generations : r.primaryGeneration = p.store.generation ∧
      r.secondaryGeneration = s.store.generation) :
    Triple allow (Crashed allow intent a) (Here p s) (sameGenerations X r)
      (fun same pair => same = true ∧ Here p s pair) (Failed allow intent a refusal) := by
  have first : p.currentHead.readGeneration = r.primaryGeneration := generations.1.symm
  have second : (s.currentSummary X).head.readGeneration = r.secondaryGeneration :=
    generations.2.symm
  refine .known (primary_read alone steps agree (head_primary agree)) ?_
  rw [if_pos first]
  refine .known (secondary_read alone steps agree (summary_secondary agree)) ?_
  exact Triple.pure _ fun _ here => ⟨decide_eq_true second, here⟩

omit alone in
theorem freshGeneration_spec {fail : Fault → Pair D → Prop} (steps : Steps intent a b)
    (agree : Agree b p s) :
    Triple allow (Crashed allow intent a) (Here p s) freshGeneration
      (fun _ pair => Here p s pair) fail := by
  refine Triple.step fun choice pair allowed here => ?_
  exact told_reply (fun after => ⟨⟨choice, allowed, .inr after⟩, b, steps, here.holds agree⟩) here

/-- The proposal a publishing command works with. -/
def Drafted (h : History X.schema identity) (stage : Stage D) (p s : Node D)
    (r : Proposal D) : Prop :=
  stage.proposal = some r ∨ stage = .vacant ∧ r.checkpoint = h.checkpoint ∧
    r.primaryGeneration = p.store.generation ∧ r.secondaryGeneration = s.store.generation

theorem proposal_spec (steps : Steps intent a ⟨h, .idle, stage⟩)
    (agree : Agree ⟨h, .idle, stage⟩ p s) :
    Triple allow (Crashed allow intent a) (Here p s) (proposal X)
      (fun r pair => Drafted h stage p s r ∧ Here p s pair) (Failed allow intent a refusal) := by
  refine .known (primary_read alone steps agree (status_primary agree)) ?_
  rw [agree.paired.primaryRecord]
  cases stage with
  | vacant =>
    have vacant : s.published = none := agree.paired.secondaryRecord
    refine .known (secondary_read alone steps agree (status_secondary agree)) ?_
    refine .known (.checked (ensure_of vacant)) ?_
    refine .known (primary_read alone steps agree fun _ =>
      Call.reading_of (agree.primary.checkpoint_eq rfl)) ?_
    refine .bind (freshGeneration_spec steps agree) fun token => ?_
    refine .known (primary_read alone steps agree (head_primary agree)) ?_
    refine .known (secondary_read alone steps agree (summary_secondary agree)) ?_
    exact Triple.pure _ fun _ here => ⟨.inr ⟨rfl, rfl, rfl, rfl⟩, here⟩
  | _ r => exact Triple.pure _ fun _ here => ⟨.inl rfl, here⟩

omit [DecidableEq D] in
omit alone in
theorem Drafted.bound (drafted : Drafted h stage p s r) (agree : Agree ⟨h, .idle, stage⟩ p s) :
    p.Bound r := by
  rcases drafted with known | ⟨rfl, checkpoint, generation, _⟩
  · exact (agree.bounds known).1
  · have ours : r.checkpoint.identity = identity ∧ r.checkpoint.format = 1 := by
      rw [checkpoint]
      exact ⟨rfl, rfl⟩
    refine ⟨ours.1.trans agree.primary.identity_eq.symm, ours.2, ?_⟩
    rw [agree.paired.primaryRole]
    exact generation.symm

omit [DecidableEq D] in
omit alone in
theorem Drafted.generations (drafted : Drafted h stage p s r)
    (agree : Agree ⟨h, .idle, stage⟩ p s) :
    r.primaryGeneration = p.store.generation ∧ r.secondaryGeneration = s.store.generation := by
  rcases drafted with known | ⟨_, _, primary, secondary⟩
  · exact agree.paired.generations r known
  · exact ⟨primary, secondary⟩

omit alone in
theorem Drafted.checkpointAt (drafted : Drafted h stage p s r)
    (agree : Agree ⟨h, .idle, stage⟩ p s) :
    p.checkpointAt X r.checkpoint.sequence = .ok r.checkpoint := by
  rcases drafted with known | ⟨_, checkpoint, _⟩
  · obtain ⟨phase, published⟩ := agree.published known
    have publication := agree.primary.publication
    unfold Node.PublicationOf at publication
    rw [published] at publication
    rw [agree.primary.checkpointAt_eq publication.1 publication.2.1, ← publication.2.2.1]
  · rw [checkpoint, History.checkpoint_sequence,
      agree.primary.checkpointAt_eq agree.primary.store.base.le_length (Nat.le_refl _),
      h.upTo_of_length_le (Nat.le_refl _)]

/-- Nothing is published yet and the live tables are too large. -/
def Oversized (X : Engine D) (e : Fault) (pair : Pair D) : Prop :=
  e = .message "published base logical quota exceeded" ∧ pair.primary.published = none ∧
    ¬pair.primary.WithinQuota X

theorem capture_spec (steps : Steps .publish a ⟨h, .idle, stage⟩)
    (agree : Agree ⟨h, .idle, stage⟩ p s) (drafted : Drafted h stage p s r) :
    Triple allow (Crashed allow .publish a) (Here p s) (onPrimary X (.captureBase r))
      (fun _ pair => ∃ p', (∃ stage', stage'.proposal = some r ∧
        Steps .publish a ⟨h, .idle, stage'⟩ ∧ Agree ⟨h, .idle, stage'⟩ p' s) ∧ Here p' s pair)
      (Failed allow .publish a (Oversized X)) := by
  have bound := drafted.bound agree
  rcases drafted with known | ⟨rfl, checkpoint, _, peer⟩
  · obtain ⟨phase, published⟩ := agree.published known
    refine (primary_read (c := .captureBase r) alone steps agree fun _ =>
      agree.primary.captureBase_again bound published rfl).strengthen ?_
    intro _ pair ⟨_, here⟩
    exact ⟨p, ⟨stage, known, steps, agree⟩, here⟩
  · have vacant : p.published = none := agree.paired.primaryRecord
    by_cases quota : p.WithinQuota X
    · obtain ⟨captured, agree'⟩ := agree.capture bound checkpoint peer quota
      have move : Steps .publish ⟨h, .idle, .vacant⟩ ⟨h, .idle, .captured r⟩ :=
        .single (.capture rfl checkpoint)
      refine (primary_step (c := .captureBase r) alone steps agree
        (fun _ => ⟨_, captured, agree'⟩) move).strengthen ?_
      intro _ pair ⟨_, p', agree', here⟩
      exact ⟨p', ⟨_, rfl, steps.trans move, agree'⟩, here⟩
    · have atop := agree.primary.captureBase_over bound vacant agree.paired.primaryIdle
        checkpoint quota
      refine (primary_error (c := .captureBase r) alone steps agree (fun _ => atop)
        fun pair here => ⟨rfl, ?_, ?_⟩).strengthen fun _ _ => False.elim
      · rw [here.primary_eq]
        exact vacant
      · rw [here.primary_eq]
        exact quota

/-- Both nodes have confirmed the record. -/
def Published (a : Position X identity) (record : Record D) (pair : Pair D) : Prop :=
  ∃ h stage p s, (Steps .publish a ⟨h, .idle, stage⟩ ∧ Agree ⟨h, .idle, stage⟩ p s ∧
    stage.primaryRecord = some record ∧ record.phase = .confirmed) ∧ Here p s pair

/-- Only the quota keeps an answered publication from being confirmed. -/
theorem publishBase_spec :
    Triple allow (Crashed allow .publish a) (Since .publish a) (publishBase X) (Published a)
      (Failed allow .publish a (Oversized X)) := by
  refine recover_then alone fun _ h stage p s steps agree => ?_
  refine .bind (proposal_spec alone steps agree) fun r => .given fun drafted => ?_
  refine .known (sameGenerations_spec alone steps agree (drafted.generations agree)) ?_
  refine .known (.checked (ensure_of rfl)) ?_
  refine .known (primary_read alone steps agree fun _ =>
    Call.reading_of (drafted.checkpointAt agree)) ?_
  refine .known (.checked (ensure_of rfl)) ?_
  refine .bind (capture_spec alone steps agree drafted) fun _ => ?_
  refine .any fun p' => .given fun ⟨stage, known, steps, agree⟩ => ?_
  obtain ⟨record, s', ⟨copied, rfl⟩, ran, agree'⟩ := agree.mirror known
  refine .known (secondary_step (c := .captureBase record.proposal) alone steps agree
    (fun _ => ⟨s', ran, agree'⟩) .mirror) ?_
  refine .any fun s => .given fun agree => ?_
  have steps := steps.trans Steps.mirror.unsolicited
  refine .known (.checked (ensure_of rfl)) ?_
  obtain ⟨s', ran, agree'⟩ := agree.acknowledge copied
  refine .known (secondary_step (c := .confirmBase record.proposal) alone steps agree
    (fun _ => ⟨s', ran, agree'⟩) .acknowledge) ?_
  refine .any fun s => .given fun agree => ?_
  have steps := steps.trans Steps.acknowledge.unsolicited
  have copied := Stage.acknowledge_record copied
  refine .known (.checked (ensure_of ⟨rfl, rfl⟩)) ?_
  refine .known (secondary_read alone steps agree (summary_secondary agree)) ?_
  have generation : (s.currentSummary X).head.readGeneration = record.proposal.secondaryGeneration :=
    (agree.paired.generations _ (Stage.proposal_eq copied)).2.symm
  refine .known (.checked (ensure_of generation)) ?_
  obtain ⟨p'', ran, agree'⟩ := agree.confirmBase copied
  refine (primary_step (c := .confirmBase record.proposal) alone steps agree
    (fun _ => ⟨p'', ran, agree'⟩) .confirm).strengthen ?_
  intro final pair ⟨confirmed, p, agree, here⟩
  refine ⟨h, _, p, s, ⟨steps.trans Steps.confirm, agree, ?_, ?_⟩, here⟩
  · rw [confirmed]
    exact Stage.confirm_record copied
  · rw [confirmed]

/-- Both nodes have activated the primary's record. -/
def Activated (a : Position X identity) (pair : Pair D) : Prop :=
  ∃ h r p s, (Steps .publish a ⟨h, .idle, .active r⟩ ∧ Agree ⟨h, .idle, .active r⟩ p s) ∧
    Here p s pair

/-- Nothing to activate. -/
def Unconfirmed (_ : Fault) (pair : Pair D) : Prop :=
  ∀ record ∈ pair.primary.published, record.phase ≠ .confirmed

/-- The primary's record names what the secondary must have. -/
theorem sameRecord_spec (published : p.published = some ⟨r, .confirmed⟩) :
    Triple allow (Crashed allow intent a) (Waiting intent a p) (sameRecord X ⟨r, .confirmed⟩)
      (fun same pair => same = true ∧ ∃ s, (∃ b, Steps intent a b ∧ Agree b p s) ∧ Here p s pair)
      (Failed allow intent a refusal) := by
  unfold sameRecord
  rw [if_pos rfl]
  refine .bind (secondary_first alone (fun s => s.published)
    fun b s random agree => status_secondary agree random) fun peer => ?_
  refine .any fun s => .given fun ⟨⟨b, steps, agree⟩, known⟩ => ?_
  have copied : peer = some ⟨r, .confirmed⟩ := by
    rw [known, agree.paired.secondaryRecord]
    exact Stage.secondary_of_confirmed (agree.paired.primaryRecord.symm.trans published)
  exact Triple.pure _ fun _ here => ⟨decide_eq_true copied, s, ⟨b, steps, agree⟩, here⟩

/-- An answered activation succeeds once the publication is confirmed. -/
theorem activateBase_spec :
    Triple allow (Crashed allow .publish a) (Since .publish a) (activateBase X)
      (fun _ => Activated a) (Failed allow .publish a Unconfirmed) := by
  refine fixPrimary fun p _ => ?_
  refine .known (primary_wait alone fun b s random agree => status_primary agree random) ?_
  match published : p.published with
  | none =>
    refine Triple.throw _ fun pair waiting => ⟨.inr ?_, waiting.2⟩
    simp [Unconfirmed, waiting.1, published]
  | some ⟨r, .captured⟩ =>
    refine Triple.throw _ fun pair waiting => ⟨.inr ?_, waiting.2⟩
    simp [Unconfirmed, waiting.1, published]
  | some ⟨r, .confirmed⟩ =>
    refine .known (sameRecord_spec alone published) ?_
    refine .any fun s => .given fun ⟨b, steps, agree⟩ => ?_
    have confirmed := agree.paired.primaryRecord.symm.trans published
    have known := Stage.proposal_eq (Stage.secondary_of_confirmed confirmed)
    refine .known (.checked (ensure_of rfl)) ?_
    refine .known (sameGenerations_spec alone steps agree (agree.paired.generations r known)) ?_
    refine .known (.checked (ensure_of rfl)) ?_
    refine .bind (recover_within alone steps agree) fun _ => ?_
    refine .any fun h => .any fun stage => .any fun p => .any fun s =>
      .given fun ⟨more, agree, _⟩ => ?_
    have confirmed : stage.primaryRecord = some ⟨r, .confirmed⟩ :=
      (more.primaryRecord_eq (by simp)).1.trans confirmed
    have steps := steps.trans more.unsolicited
    refine .known (secondary_step alone steps agree (fun _ => agree.follow confirmed) .follow) ?_
    refine .any fun s => .given fun agree => ?_
    have steps := steps.trans Steps.follow.unsolicited
    have followed := Stage.follow_eq confirmed
    refine .known (secondary_read alone steps agree (summary_secondary agree)) ?_
    obtain ⟨known, stored⟩ := Stage.followed_frame followed
    have base : (s.currentSummary X).head.base = some r.checkpoint ∧
        (s.currentSummary X).head.readGeneration = r.secondaryGeneration :=
      ⟨agree.paired.secondaryBase.trans stored, (agree.paired.generations r known).2.symm⟩
    refine .known (.checked (ensure_of base)) ?_
    refine (primary_step (c := .activatePublishedBase r) alone steps agree
      (fun _ => agree.activate followed) (.activate followed)).strengthen ?_
    intro _ pair ⟨_, p, agree, here⟩
    exact ⟨h, r, p, s, ⟨steps.trans (Steps.activate followed), agree⟩, here⟩

end Spec

end Pair

end TerrapiVault.Replication
