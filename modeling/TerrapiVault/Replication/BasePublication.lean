import TerrapiVault.Replication.PairRuns
import TerrapiVault.Replication.TwoCopy

/-! The publication and activation of bases over whole runs, and their retry from
whatever a run leaves behind. The quota on the artifact is the one thing that can
keep a retry from succeeding. -/
namespace TerrapiVault.Replication

open CrashLogic Protocol
open Publication (Stage)

variable {D : Type} [DecidableEq D]

/-- The records and bases of a pair at any time. -/
structure Pair.PublicationSafe (X : Engine D) (pair : Pair D) : Prop where
  confirmed : ∀ record ∈ pair.primary.published, record.phase = .confirmed →
    pair.secondary.published = some record
  base : ∀ b ∈ pair.primary.store.base, pair.secondary.checkpointAt X b.sequence = .ok b
  prepare : (∃ record ∈ pair.primary.published, record.phase = .captured) →
    ∀ batch random e node, pair.primary.prepare X batch random = .ok (e, node) →
      node = pair.primary
  stage : (∃ record ∈ pair.secondary.published, record.phase = .captured) →
    ∀ entry random node, pair.secondary.stage X entry random = .ok ((), node) →
      node = pair.secondary

/-- Bases only move forward. -/
structure Pair.BasesKept (before after : Pair D) : Prop where
  primary : ∀ b ∈ before.primary.store.base, ∃ b' ∈ after.primary.store.base,
    b.sequence ≤ b'.sequence
  secondary : ∀ b ∈ before.secondary.store.base, ∃ b' ∈ after.secondary.store.base,
    b.sequence ≤ b'.sequence

/-- `publish_base` and then `activate_base` leave one base on both nodes, unless nothing
has been captured and the live tables exceed the quota. -/
def Pair.Republishes (X : Engine D) (choices choices' : ℕ → Choice D) (pair : Pair D) : Prop :=
  let published := Pair.publishBase X choices 0 pair
  let activated := Pair.activateBase X choices' 0 published.final
  (∃ record, published.value? = some (.ok record) ∧ activated.value? = some (.ok ()) ∧
    activated.final.primary.store.base = some record.proposal.checkpoint ∧
    activated.final.secondary.store.base = some record.proposal.checkpoint) ∨
  (published.value? = some (.error (.message "published base logical quota exceeded")) ∧
    pair.primary.published = none ∧ ¬published.final.primary.WithinQuota X)

variable {X : Engine D} {identity : Identity ℕ} {a b : Position X identity} {pair later : Pair D}

theorem Protocol.Agree.publicationSafe (agree : Agree a pair.primary pair.secondary) :
    pair.PublicationSafe X where
  confirmed := by
    intro record published phase
    obtain ⟨r, _⟩ := record
    obtain rfl := phase
    rw [agree.paired.secondaryRecord]
    exact Stage.secondary_of_confirmed (agree.paired.primaryRecord.symm.trans published)
  base := by
    intro b stored
    refine Pair.primary_base_reached agree stored ?_
    rw [Option.mem_def, agree.paired.primaryBase] at stored
    rw [agree.paired.secondaryBase]
    obtain ⟨h, phase, stage⟩ := a
    cases stage with
    | active r =>
      obtain rfl := Option.some.inj stored
      exact Nat.le_refl _
    | _ => simp [Stage.primaryBase] at stored
  prepare := by
    rintro ⟨record, published, captured⟩ batch random e node ok
    obtain ⟨_, _, _, ⟨_, same⟩ | ⟨_, confirmed, _⟩⟩ := agree.primary.prepare_ok ok
    · exact same
    · rw [confirmed record published] at captured
      simp at captured
  stage := by
    rintro ⟨record, published, captured⟩ entry random node ok
    obtain ⟨_, ⟨_, _, _, _, same⟩ | ⟨_, confirmed, _⟩⟩ := agree.secondary.stage_ok ok
    · exact same
    · rw [confirmed record published] at captured
      simp at captured

omit [DecidableEq D] in
theorem Publication.Stage.Advances.basesKept (advances : a.stage.Advances b.stage)
    (agree : Agree a pair.primary pair.secondary)
    (agree' : Agree b later.primary later.secondary) : pair.BasesKept later where
  primary := by
    intro base stored
    refine ⟨base, ?_, Nat.le_refl _⟩
    rw [agree'.paired.primaryBase]
    exact advances.primaryBase base (agree.paired.primaryBase.symm.trans stored)
  secondary := by
    intro base stored
    refine ⟨base, ?_, Nat.le_refl _⟩
    rw [agree'.paired.secondaryBase]
    exact advances.secondaryBase base (agree.paired.secondaryBase.symm.trans stored)

theorem Pair.Published.activates {record : Publication.Record D} {choices : ℕ → Choice D}
    (published : Pair.Published a record pair) (calm : ∀ n, (choices n).Calm) :
    (Pair.activateBase X choices 0 pair).value? = some (.ok ()) ∧
      (Pair.activateBase X choices 0 pair).final.primary.store.base =
        some record.proposal.checkpoint ∧
      (Pair.activateBase X choices 0 pair).final.secondary.store.base =
        some record.proposal.checkpoint := by
  obtain ⟨h, stage, p, s, ⟨_, agree, confirmed, phase⟩, here⟩ := published
  obtain ⟨r, _⟩ := record
  obtain rfl := phase
  have known : stage.proposal = some r :=
    Stage.proposal_eq (Stage.secondary_of_confirmed confirmed)
  have spec := Pair.activateBase_spec (X := X) (a := ⟨h, .idle, stage⟩)
    fun _ (calm : Choice.Calm _) => calm.alone
  rcases spec.ends (fun _ crashed => Pair.calm_not_stoppable (fun _ calm => calm) crashed.1) calm 0
    ⟨_, .refl, here.holds agree⟩ with ⟨_, value, h', r', p', s', ⟨steps, agree'⟩, here'⟩ | ⟨e, _, why, b, steps, holds⟩
  · have same : r' = r := Option.some.inj (steps.advances.proposal r known)
    refine ⟨value, ?_, ?_⟩
    · rw [here'.primary_eq, agree'.paired.primaryBase, same]
      rfl
    · rw [here'.secondary_eq, agree'.paired.secondaryBase, same]
      rfl
  · rcases why with ⟨_, lossy⟩ | unconfirmed
    · exact absurd lossy (Pair.calm_not_lossy fun _ calm => calm)
    · have kept := holds.agree.paired.primaryRecord.trans (steps.advances.confirmed r confirmed)
      exact absurd rfl (unconfirmed _ kept)

theorem Pair.Holds.republishes {choices choices' : ℕ → Choice D} (holds : Pair.Holds a pair)
    (calm : ∀ n, (choices n).Calm) (calm' : ∀ n, (choices' n).Calm) :
    pair.Republishes X choices choices' := by
  have spec := Pair.publishBase_spec (X := X) (a := a) fun _ (calm : Choice.Calm _) => calm.alone
  rcases spec.ends (fun _ crashed => Pair.calm_not_stoppable (fun _ calm => calm) crashed.1) calm 0
    ⟨a, .refl, holds⟩ with ⟨record, value, published⟩ | ⟨e, value, why, b, steps, held⟩
  · obtain ⟨activated, primary, secondary⟩ := published.activates calm'
    exact .inl ⟨record, value, activated, primary, secondary⟩
  · rcases why with ⟨_, lossy⟩ | ⟨rfl, vacant, large⟩
    · exact absurd lossy (Pair.calm_not_lossy fun _ calm => calm)
    · refine .inr ⟨value, ?_, large⟩
      -- a captured proposal would still be there
      cases known : a.stage.proposal with
      | none =>
        rw [holds.agree.paired.primaryRecord]
        revert known
        cases a.stage <;> simp [Stage.proposal, Stage.primaryRecord]
      | some r =>
        obtain ⟨_, published⟩ := held.agree.published (steps.advances.proposal r known)
        rw [vacant] at published
        simp at published

variable {generation revision generation' revision' : Bytes32}

/-- The publication protocol in every state a coordinator leaves a pair in. -/
theorem base_publication (supported : identity.schema = 1 ∧ 0 < identity.epoch)
    (reachable : Reachable X Choice.Alone (fun _ => True)
      (Pair.create identity generation revision generation' revision') pair) :
    pair.PublicationSafe X ∧
    (∀ later, Reachable X Choice.Alone (fun _ => True) pair later → pair.BasesKept later) ∧
    (∀ choices choices', (∀ n, (choices n).Calm) → (∀ n, (choices' n).Calm) →
      pair.Republishes X choices choices') := by
  obtain ⟨a, _, holds⟩ := reachable.moves (Pair.create_holds X supported ..)
  refine ⟨holds.agree.publicationSafe, ?_, fun _ _ calm calm' => holds.republishes calm calm'⟩
  intro later run
  obtain ⟨b, moves, held⟩ := run.moves holds
  exact moves.advances.basesKept holds.agree held.agree

theorem Sample.base_publication_placed :
    Sample.placedPair.PublicationSafe Sample.engine ∧
    (∀ later, Reachable Sample.engine Choice.Alone (fun _ => True) Sample.placedPair later →
      Sample.placedPair.BasesKept later) ∧
    (∀ choices choices', (∀ n, (choices n).Calm) → (∀ n, (choices' n).Calm) →
      Sample.placedPair.Republishes Sample.engine choices choices') :=
  base_publication (by decide) Sample.placedPair_reachable

/-! A pair too large to publish. -/

section Oversized

variable {h : History X.schema identity} {p p' s s' : Node D} {stage stage' : Stage D}

omit [DecidableEq D] in
theorem Protocol.Agree.quota_congr {phase phase' : Phase h} (agree : Agree ⟨h, phase, stage⟩ p s)
    (agree' : Agree ⟨h, phase', stage'⟩ p' s') :
    p'.publicationQuota X = p.publicationQuota X := by
  have data : p'.store.data = p.store.data :=
    ok_unique agree'.primaryView agree.primaryView
  have receipts : p'.store.receipts = p.store.receipts :=
    agree'.primary.store.receipts_eq.trans agree.primary.store.receipts_eq.symm
  unfold Node.publicationQuota
  rw [data, receipts]

omit [DecidableEq D] in
theorem Publication.Stage.vacant_of_record (unpublished : stage.primaryRecord = none) :
    stage = .vacant := by
  cases stage <;> simp [Stage.primaryRecord] at unpublished ⊢

theorem Pair.publishBase_over {allow : Choice D → Prop}
    (alone : ∀ choice, allow choice → choice.others = [])
    (agree : Agree ⟨h, .idle, .vacant⟩ p s) (large : ¬p.WithinQuota X) :
    Triple allow (Pair.Crashed allow .publish ⟨h, .idle, .vacant⟩) (Pair.Here p s)
      (Pair.publishBase X) (fun _ _ => False)
      (Pair.Failed allow .publish ⟨h, .idle, .vacant⟩ (Pair.Oversized X)) := by
  refine .bind (Pair.recover_within alone .refl agree) fun _ => ?_
  refine .any fun h' => .any fun stage => .any fun p' => .any fun s' =>
    .given fun ⟨resolved, agree', _⟩ => ?_
  obtain rfl : h' = h := resolved.committed_eq
  obtain rfl := Stage.vacant_of_record (resolved.primaryRecord_eq (by simp)).1
  have large : ¬p'.WithinQuota X := by
    rw [Node.WithinQuota, agree.quota_congr agree']
    exact large
  have steps : Steps .publish ⟨h', .idle, .vacant⟩ ⟨h', .idle, .vacant⟩ := resolved.unsolicited
  refine .bind (Pair.proposal_spec alone steps agree') fun r => .given fun drafted => ?_
  refine .known (Pair.sameGenerations_spec alone steps agree' (drafted.generations agree')) ?_
  refine .known (.checked (ensure_of rfl)) ?_
  refine .known (Pair.primary_read alone steps agree' fun _ =>
    Call.reading_of (drafted.checkpointAt agree')) ?_
  refine .known (.checked (ensure_of rfl)) ?_
  have vacant : p'.published = none := agree'.paired.primaryRecord
  have bound := drafted.bound agree'
  obtain ⟨_, checkpoint, _⟩ := drafted.resolve_left (by simp [Stage.proposal])
  have atop := agree'.primary.captureBase_over bound vacant agree'.paired.primaryIdle
    checkpoint large
  refine .bind (Pair.primary_error (c := .captureBase r) alone steps agree' (fun _ => atop)
    fun pair here => ⟨rfl, ?_, ?_⟩) fun _ _ _ _ _ => False.elim
  · rw [here.primary_eq]
    exact vacant
  · rw [here.primary_eq]
    exact large

end Oversized

namespace Sample

/-- A name of `n + 1` letters. -/
def letters (n : ℕ) : String := String.ofList (List.replicate (n + 1) 'a')

theorem letters_injective : Function.Injective letters := by
  intro m n same
  have lists := String.ofList_injective same
  have lengths := congrArg List.length lists
  simpa using lengths

/-- A new pair after `n` requests without changes. -/
def filled : ℕ → Pair Term
  | 0 => emptyPair
  | n + 1 => (Command.commit (emptyBatch (letters n))).exec engine steady (filled n)

theorem filled_reachable (n : ℕ) :
    Reachable engine Choice.Alone (fun _ => True) emptyPair (filled n) := by
  induction n with
  | zero => exact .refl
  | succ n ih => exact .command _ steady ih trivial fun n => (steady_calm n).alone

theorem letters_size (n : ℕ) : JsonSize.text (letters n) = n + 3 := by
  have one : JsonSize.escaped 'a' = 1 := by decide
  rw [JsonSize.text, letters, String.toList_ofList, List.map_replicate, one,
    List.sum_replicate_nat]
  omega

theorem emptyEntry_size (node : Node Term) (id : String) (n : ℕ) :
    (node.preparedEntry engine (emptyBatch id) n View.empty []).size engine.schema =
      382 + JsonSize.text id + JsonSize.number n := by
  have digest : ∀ d, engine.schema.length d = 64 := fun _ => rfl
  have fields : Identity.size engine.schema pairIdentity + JsonSize.text "batch" +
      JsonSize.text "identity" + JsonSize.text "operation_id" + JsonSize.text "changes" +
      JsonSize.text "sequence" + JsonSize.text "before" + JsonSize.text "after" +
      JsonSize.text "changeset" + JsonSize.bytes [] + JsonSize.text "digest" +
      JsonSize.text "state" + JsonSize.text State.prepared.name = 160 := by
    decide +kernel
  simp only [Entry.size, Batch.size, Node.preparedEntry, emptyBatch, digest, JsonSize.object,
    JsonSize.array, List.map, List.sum_cons, List.sum_nil, List.length_cons, List.length_nil]
  omega

theorem emptyEntry_fits (node : Node Term) {n : ℕ} (small : n < 100001) :
    checkEntrySize engine.schema
      (node.preparedEntry engine (emptyBatch (letters n)) (n + 1) View.empty []) = .ok () := by
  have digits : JsonSize.number (n + 1) ≤ 6 :=
    (Nat.length_toDigits_le_iff (by decide) (by decide)).mpr (by omega)
  have prepared : (node.preparedEntry engine (emptyBatch (letters n)) (n + 1) View.empty []).state =
      .prepared := rfl
  refine ensure_of ?_
  rw [if_pos prepared, maxPageBytes, emptyEntry_size, letters_size]
  omega

/-- What is known of the pair after `n` requests. -/
structure Filling (n : ℕ) (h : History engine.schema pairIdentity) : Prop where
  length : h.length = n
  view : h.view = .ok View.empty
  names : ∀ id ∈ h.operations, ∃ i < n, id = letters i

theorem Filling.admissible {n : ℕ} {h : History engine.schema pairIdentity} (filling : Filling n h)
    (small : n < 100001) : Admissible h (emptyBatch (letters n)) where
  scope := rfl
  named := by
    intro none
    have lists := congrArg String.toList none
    simp [emptyBatch, letters, String.toList_ofList] at lists
  fresh := by
    intro mem
    obtain ⟨i, before, same⟩ := filling.names _ mem
    have := letters_injective same
    omega
  room := by
    rw [filling.length]
    omega
  executes := by
    intro node view
    have rows : node.store.data = View.empty :=
      ok_unique view filling.view
    rw [rows, filling.length]
    exact ⟨View.empty, [], View.empty, rfl, emptyEntry_fits node small, rfl, rfl⟩

theorem Filling.push {n : ℕ} {h : History engine.schema pairIdentity} (filling : Filling n h)
    {e : Entry Change ℕ Term} (next : h.Next e) (same : e.batch = emptyBatch (letters n))
    (empty : e.changeset = []) : Filling (n + 1) (h.push e next) where
  length := by rw [History.push_length, filling.length]
  view := by
    rw [History.push_view next filling.view, empty]
    rfl
  names := by
    intro id mem
    rw [History.push_operations, List.mem_append, List.mem_singleton] at mem
    rcases mem with old | new
    · obtain ⟨i, before, named⟩ := filling.names id old
      exact ⟨i, by omega, named⟩
    · exact ⟨n, by omega, by rw [new, same]; rfl⟩

theorem filled_agrees (n : ℕ) (small : n ≤ 100001) :
    ∃ h p s, (Agree (X := engine) ⟨h, .idle, .vacant⟩ p s ∧ Filling n h) ∧
      Pair.Here p s (filled n) := by
  induction n with
  | zero =>
    have created := agree_create engine (by decide : pairIdentity.schema = 1 ∧ 0 < pairIdentity.epoch)
      (draw 1) (draw 2) (draw 3) (draw 4)
    refine ⟨_, _, _, ⟨created, ⟨rfl, rfl, ?_⟩⟩, ⟨rfl, rfl, rfl⟩⟩
    intro id mem
    simp [History.operations, History.receipts, History.initial] at mem
  | succ n ih =>
    obtain ⟨h, p, s, ⟨agree, filling⟩, here⟩ := ih (by omega)
    have spec := Pair.commit_fresh (X := engine) (a := ⟨h, .idle, .vacant⟩)
      (fun _ (calm : Choice.Calm _) => calm.alone) (by simp [Stage.Idle, Stage.primaryRecord])
      (filling.admissible (by omega))
    obtain ⟨_, _, e, next, stage, p', s', ⟨steps, agree', same, view, rows, known, captured⟩, here'⟩ :=
      spec.returns (fun _ crashed => Pair.calm_not_stoppable (fun _ calm => calm) crashed.1)
        (fun _ _ failed => failed.1.elim
          (fun lost => Pair.calm_not_lossy (fun _ calm => calm) lost.2) id) steady_calm 0
        ⟨_, .refl, here.holds agree⟩
    obtain rfl := Stage.vacant_of_record (steps.primaryRecord_eq (by simp)).1
    have empty : e.changeset = [] := by
      exact (Prod.mk.inj (Except.ok.inj captured)).2.symm
    exact ⟨_, p', s', ⟨agree', filling.push next same empty⟩, here'⟩

/-- After 100001 requests the artifact would hold 100001 receipts: with every call
answered the publication is refused, as often as it is tried. -/
theorem publishBase_oversized :
    Reachable engine Choice.Alone (fun _ => True) emptyPair (filled 100001) ∧
    (Pair.publishBase engine steady 0 (filled 100001)).value? =
      some (.error (.message "published base logical quota exceeded")) := by
  refine ⟨filled_reachable _, ?_⟩
  obtain ⟨h, p, s, ⟨agree, filling⟩, here⟩ := filled_agrees 100001 (Nat.le_refl _)
  have large : ¬p.WithinQuota engine := by
    intro ⟨rows, _⟩
    have count : p.store.receipts.length = 100001 := by
      rw [agree.primary.store.receipts_eq, h.receipts_length, filling.length]
    simp only [Node.publicationQuota, Materialized.maxRows, count] at rows
    omega
  have spec := Pair.publishBase_over (fun _ (calm : Choice.Calm _) => calm.alone) agree large
  rcases spec.ends (fun _ crashed => Pair.calm_not_stoppable (fun _ calm => calm) crashed.1)
    steady_calm 0 here with ⟨_, _, never⟩ | ⟨e, value, ⟨_, lossy⟩ | ⟨rfl, _⟩, _⟩
  · exact never.elim
  · exact absurd lossy (Pair.calm_not_lossy fun _ calm => calm)
  · exact value

end Sample

end TerrapiVault.Replication
