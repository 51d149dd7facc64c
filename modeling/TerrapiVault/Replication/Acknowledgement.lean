import TerrapiVault.Replication.PairRetries
import TerrapiVault.Replication.TwoCopy

/-! What an answer of `commit` or `Coordinator::write` says about the rest of the run. -/
namespace TerrapiVault.Replication

open CrashLogic Protocol

variable {D : Type}

/-- Nothing of the operation is decided, applied or answered on either node. -/
structure Unaccepted (id : String) (pair : Pair D) : Prop where
  primary : ∀ e ∈ pair.primary.store.log, e.batch.operationId = id → e.state = .prepared
  secondary : ∀ e ∈ pair.secondary.store.log, e.batch.operationId = id → e.state ≠ .applied
  receipts : ∀ r ∈ pair.primary.store.receipts ++ pair.secondary.store.receipts,
    r.result.operationId ≠ id

variable {X : Engine D} {identity : Identity ℕ}

theorem Protocol.Agree.unaccepted {a : Position X identity} {pair : Pair D} {id : String}
    (agree : Agree a pair.primary pair.secondary) (absent : id ∉ a.committed.operations) :
    Unaccepted id pair := by
  have decided : ∀ e ∈ pair.primary.store.log, e.batch.operationId = id → e.state = .prepared := by
    intro e mem same
    by_contra pending
    have kept : e.withState .applied ∈ pair.primary.decidedEntries :=
      List.mem_map_of_mem (List.mem_filter.mpr ⟨mem, decide_eq_true pending⟩)
    rw [agree.decidedEntries_eq] at kept
    have committed := a.committed.mem_operations kept
    exact absent (same ▸ committed)
  refine ⟨decided, ?_, ?_⟩
  · intro e mem same applied
    obtain ⟨e', mem', restated, late⟩ := agree.mem_primary mem
    have named : e'.batch.operationId = id := by
      rw [← same, ← restated]
      rfl
    exact late applied (decided e' mem' named)
  · intro r mem same
    have committed : r ∈ a.committed.receipts := by
      rw [agree.primary.store.receipts_eq, agree.secondary.store.receipts_eq] at mem
      rcases List.mem_append.mp mem with old | old
      · have grows := a.history_grows.trans a.secondary_grows
        exact grows.receipts_prefix.subset old
      · exact a.secondary_grows.receipts_prefix.subset old
    exact absent (same ▸ List.mem_map_of_mem committed)

variable [DecidableEq D] {generation revision generation' revision' : Bytes32} {pair : Pair D}

/-- An operation that `write` reports as not accepted is not committed, and stays so
until somebody submits it again. -/
theorem not_accepted_stays (supported : identity.schema = 1 ∧ 0 < identity.epoch)
    (reachable : Reachable X Choice.Alone (fun _ => True)
      (Pair.create identity generation revision generation' revision') pair)
    {choices : ℕ → Choice D} (alone : ∀ n, (choices n).Alone) {batch : Batch Change ℕ}
    {failure : Coordinator.WriteFailure}
    (returned : (Pair.write X batch choices 0 pair).value? = some (.ok (.error failure)))
    (status : failure.statusCode = 503) (outcome : failure.outcome = .notAccepted) :
    failure.operationId = batch.operationId ∧
    Unaccepted failure.operationId ((Command.write batch).exec X choices pair) ∧
    ∀ later, Reachable X Choice.Alone
      (fun command => ∀ batch ∈ command.submitted, batch.operationId ≠ failure.operationId)
      ((Command.write batch).exec X choices pair) later → Unaccepted failure.operationId later := by
  obtain ⟨a, _, holds⟩ := reachable.moves (Pair.create_holds X supported ..)
  have spec : Triple Choice.Alone (Pair.Crashed Choice.Alone (.write batch) a) _ _ _
      fun _ _ => False := Pair.write_spec fun _ alone => alone
  obtain ⟨named, b, steps, held, absent⟩ := spec.returned alone ⟨a, .refl, holds⟩ returned
  have absent := absent status outcome
  rw [named]
  refine ⟨rfl, held.agree.unaccepted absent, ?_⟩
  intro later run
  obtain ⟨c, moves, held⟩ := run.moves held
  exact held.agree.unaccepted (moves.uncommitted (fun _ admitted => admitted) absent)

namespace Sample

/-- The thirteenth step is the secondary's `stage`. -/
theorem not_accepted_stays_staged :
    Unaccepted "a" ((Command.write (placeBatch "a")).exec engine (losing 12) emptyPair) :=
  (not_accepted_stays (by decide) .refl (losing_alone 12)
    (by decide +kernel : (Pair.write engine (placeBatch "a") (losing 12) 0 emptyPair).value? =
      some (.ok (.error ⟨503, "a", .notAccepted, true, "peer_unavailable_or_recovery_required"⟩)))
    rfl rfl).2.1

end Sample

/-! Retries. -/

/-- Exactly one receipt for the request, with this result. -/
def Node.Receipted (X : Engine D) (batch : Batch Change ℕ) (r : WriteResult) (node : Node D) :
    Prop :=
  ∃ receipt, node.store.receipts.filter
      (fun row => row.result.operationId = batch.operationId) = [receipt] ∧
    receipt.result = r ∧ receipt.requestDigest = X.requestFingerprint batch.changes

/-- Every row is a row the primary had before, up to its state. -/
def Pair.NoNewEntry (before after : Pair D) : Prop :=
  ∀ e ∈ after.primary.store.log ++ after.secondary.store.log,
    ∃ e' ∈ before.primary.store.log, e'.withState e.state = e

/-- The same request again: no other result, no new entry, and the same result if every
call is answered, except that `write` waits for a captured base to be confirmed. -/
structure Command.Repeats (X : Engine D) (retry : Command) (choices : ℕ → Choice D)
    (pair : Pair D) (r : WriteResult) : Prop where
  same : ∀ r', retry.acknowledged X choices pair = some r' → r' = r
  entries : pair.NoNewEntry (retry.exec X choices pair)
  answered : (∀ n, (choices n).Calm) → ((∃ batch, retry = .commit batch) ∨
    ∀ record ∈ pair.primary.published, record.phase = .confirmed) →
      retry.acknowledged X choices pair = some r

/-- Another request under the same name: no result. `write` leaves the pair to the
unanswered call; `commit` leaves what its recovery leaves. -/
structure Command.Refuses (X : Engine D) (retry : Command) (choices : ℕ → Choice D)
    (pair : Pair D) : Prop where
  refused : retry.acknowledged X choices pair = none
  write : ∀ batch, retry = .write batch → Pair.Settled X pair (retry.exec X choices pair)
  commit : ∀ batch, retry = .commit batch →
    retry.exec X choices pair = Command.recover.exec X choices pair

section Retries

variable {a : Position X identity} {e : RefEntry D} {choices : ℕ → Choice D}
  {batch : Batch Change ℕ} {r : WriteResult}

theorem Pair.Since.noNewEntry {after : Pair D} (holds : Pair.Holds a pair)
    (since : Pair.Since .resolve a after) : pair.NoNewEntry after := by
  obtain ⟨b, steps, held⟩ := since
  have primary : ∀ e ∈ after.primary.store.log,
      ∃ e' ∈ pair.primary.store.log, e'.withState e.state = e := by
    intro e mem
    rw [holds.agree.primary.store.log_eq]
    rw [held.agree.primary.store.log_eq] at mem
    exact steps.rows mem
  intro e mem
  rcases List.mem_append.mp mem with first | second
  · exact primary e first
  · obtain ⟨e', mem', same, _⟩ := held.agree.mem_primary second
    obtain ⟨e'', mem'', same'⟩ := primary e' mem'
    exact ⟨e'', mem'', by rw [← same, ← same']; rfl⟩

theorem Command.acknowledged_commit :
    (Command.commit batch).acknowledged X choices pair = some r ↔
      (Pair.commit X batch choices 0 pair).value? = some (.ok r) := by
  dsimp only [acknowledged]
  generalize (Pair.commit X batch choices 0 pair).value? = value
  match value with
  | none => simp
  | some (.ok r') => simp
  | some (.error e) => simp

theorem Command.acknowledged_write :
    (Command.write batch).acknowledged X choices pair = some r ↔
      (Pair.write X batch choices 0 pair).value? = some (.ok (.ok r)) := by
  dsimp only [acknowledged]
  generalize (Pair.write X batch choices 0 pair).value? = value
  match value with
  | none => simp
  | some (.ok (.ok r')) => simp
  | some (.ok (.error f)) => simp
  | some (.error e) => simp

theorem Pair.Holds.repeats (holds : Pair.Holds a pair) (mem : e ∈ a.history.entries)
    {retry : Command} (submits : retry.submitted = some e.batch) (alone : ∀ n, (choices n).Alone) :
    retry.Repeats X choices pair (e.receipt X.schema).result := by
  have since : Pair.Since .resolve a pair := ⟨a, .refl, holds⟩
  have grows := a.history_grows.trans a.secondary_grows
  have committed : e ∈ a.committed.entries := grows.entries_prefix.subset mem
  cases retry with
  | commit batch =>
    obtain rfl := Option.some.inj submits
    have spec := Pair.commit_known (fun _ (alone : Choice.Alone _) => alone) committed
    have spec' := Pair.commit_known (fun _ (calm : Choice.Calm _) => calm.alone) committed
    refine ⟨?_, ?_, ?_⟩
    · intro r' acked
      exact (spec.returned alone since (Command.acknowledged_commit.mp acked)).1
    · exact (spec.final (fun _ crashed => crashed.2) (fun _ _ done => done.2)
        (fun _ _ failed => failed.2) alone since).noNewEntry holds
    · intro calm _
      obtain ⟨r', value, same, _⟩ := spec'.returns
        (fun _ crashed => Pair.calm_not_stoppable (fun _ calm => calm) crashed.1)
        (fun _ _ failed => failed.1.elim
          (fun lost => Pair.calm_not_lossy (fun _ calm => calm) lost.2) id) calm 0 since
      rw [same] at value
      exact Command.acknowledged_commit.mpr value
  | write batch =>
    obtain rfl := Option.some.inj submits
    have spec : Triple _ _ _ _ _ fun _ _ => False :=
      Pair.write_known (fun _ (alone : Choice.Alone _) => alone) mem
    have spec' : Triple _ _ _ _ _ fun _ _ => False :=
      Pair.write_known (fun _ (calm : Choice.Calm _) => calm.alone) mem
    refine ⟨?_, ?_, ?_⟩
    · intro r' acked
      rcases (spec.returned alone since (Command.acknowledged_write.mp acked)).1 with
        same | ⟨_, f, other⟩
      · exact Except.ok.inj same
      · simp at other
    · exact (spec.final (fun _ crashed => crashed.2) (fun _ _ done => done.2)
        (fun _ _ => False.elim) alone since).noNewEntry holds
    · intro calm idle
      have idle : a.stage.Idle := by
        rw [Publication.Stage.Idle, ← holds.agree.paired.primaryRecord]
        exact idle.resolve_left (by simp)
      obtain ⟨answer, value, same | ⟨lossy | busy, _⟩, _⟩ := spec'.returns
        (fun _ crashed => Pair.calm_not_stoppable (fun _ calm => calm) crashed.1)
        (fun _ _ => id) calm 0 since
      · rw [same] at value
        exact Command.acknowledged_write.mpr value
      · exact absurd lossy (Pair.calm_not_lossy fun _ calm => calm)
      · exact absurd idle busy
  | recover | publishBase | activateBase => simp [Command.submitted] at submits

theorem Pair.Holds.refuses (holds : Pair.Holds a pair) (mem : e ∈ a.history.entries)
    {retry : Command} (submits : retry.submitted = some batch) (alone : ∀ n, (choices n).Alone)
    (named : batch.operationId = e.batch.operationId)
    (other : X.requestFingerprint batch.changes ≠ X.requestFingerprint e.batch.changes) :
    retry.Refuses X choices pair := by
  have grows := a.history_grows.trans a.secondary_grows
  have committed : e ∈ a.committed.entries := grows.entries_prefix.subset mem
  cases retry with
  | commit batch' =>
    obtain rfl := Option.some.inj submits
    refine ⟨Option.eq_none_iff_forall_ne_some.mpr fun r acked => ?_, by simp, fun _ _ =>
      Pair.commit_conflict_final alone holds committed named other 0⟩
    exact (Pair.commit_conflict (fun _ (alone : Choice.Alone _) => alone) committed named
      other).returned alone ⟨a, .refl, holds⟩ (Command.acknowledged_commit.mp acked)
  | write batch' =>
    obtain rfl := Option.some.inj submits
    have spec : Triple _ _ _ _ _ fun _ _ => False :=
      Pair.write_conflict (fun _ (alone : Choice.Alone _) => alone) holds.agree mem named other
    refine ⟨Option.eq_none_iff_forall_ne_some.mpr fun r acked => ?_, fun _ _ =>
      spec.final (fun _ settled => settled) (fun _ _ done => done.2) (fun _ _ => False.elim)
        alone (.inl rfl), by simp⟩
    have answer := (spec.returned alone (.inl rfl) (Command.acknowledged_write.mp acked)).1
    simp at answer
  | recover | publishBase | activateBase => simp [Command.submitted] at submits

theorem Pair.Holds.written (holds : Pair.Holds a pair) {command : Command}
    (submits : command.submitted = some batch) (alone : ∀ n, (choices n).Alone)
    (acked : command.acknowledged X choices pair = some r) :
    Pair.Written batch a r (command.exec X choices pair) := by
  cases command with
  | commit batch' =>
    obtain rfl := Option.some.inj submits
    exact (Pair.commit_spec fun _ (alone : Choice.Alone _) => alone).returned alone
      ⟨a, .refl, holds⟩ (Command.acknowledged_commit.mp acked)
  | write batch' =>
    obtain rfl := Option.some.inj submits
    have spec : Triple _ (Pair.Crashed Choice.Alone (.write batch') a) _ _ _ fun _ _ => False :=
      Pair.write_spec fun _ (alone : Choice.Alone _) => alone
    exact spec.returned alone ⟨a, .refl, holds⟩ (Command.acknowledged_write.mp acked)
  | recover | publishBase | activateBase => simp [Command.submitted] at submits

omit [DecidableEq D] in
theorem Node.Sound.receipted {node : Node D} {h : History X.schema identity}
    {tail : Option (RefEntry D)} (sound : node.Sound h tail) (mem : e ∈ h.entries)
    (named : batch.operationId = e.batch.operationId)
    (same : X.requestFingerprint e.batch.changes = X.requestFingerprint batch.changes) :
    node.Receipted X batch (e.receipt X.schema).result := by
  refine ⟨e.receipt X.schema, ?_, rfl, same⟩
  rw [sound.store.receipts_eq, named]
  exact Table.filter_unique h.operations_nodup (h.mem_receipts mem)

omit [DecidableEq D] in
theorem Pair.Acknowledged.entry {h : History X.schema identity}
    (acked : Pair.Acknowledged batch r h) (origin : h.origin.sequence = 0) :
    ∃ e ∈ h.entries, (e.receipt X.schema).result = r ∧
      batch.operationId = e.batch.operationId ∧
      X.requestFingerprint e.batch.changes = X.requestFingerprint batch.changes := by
  obtain ⟨receipt, mem, rfl, named, digest⟩ := acked
  have nothing : h.imported = [] := by
    rw [← List.length_eq_zero_iff, h.imported_length, origin]
  rw [History.receipts, nothing, List.nil_append] at mem
  obtain ⟨e, inside, rfl⟩ := List.mem_map.mp mem
  exact ⟨e, inside, rfl, named.symm, digest⟩

end Retries

/-- Once a request has been acknowledged, both nodes keep its one receipt, the same
request only ever gets the same result, and another request under its name is refused. -/
theorem acknowledged_once (supported : identity.schema = 1 ∧ 0 < identity.epoch)
    (fingerprints : Function.Injective X.requestFingerprint)
    (reachable : Reachable X Choice.Alone (fun _ => True)
      (Pair.create identity generation revision generation' revision') pair)
    {command : Command} {choices : ℕ → Choice D} (alone : ∀ n, (choices n).Alone)
    {batch : Batch Change ℕ} {r : WriteResult} (submits : command.submitted = some batch)
    (acked : command.acknowledged X choices pair = some r) {later : Pair D}
    (run : Reachable X Choice.Alone (fun _ => True) (command.exec X choices pair) later) :
    r.operationId = batch.operationId ∧
    later.primary.Receipted X batch r ∧ later.secondary.Receipted X batch r ∧
    ∀ (retry : Command) (choices' : ℕ → Choice D) (batch' : Batch Change ℕ),
      retry.submitted = some batch' → batch'.operationId = batch.operationId →
      (∀ n, (choices' n).Alone) →
      (batch'.identity = identity → batch'.changes = batch.changes →
        retry.Repeats X choices' later r) ∧
      (X.requestFingerprint batch'.changes ≠ X.requestFingerprint batch.changes →
        retry.Refuses X choices' later) := by
  obtain ⟨a, _, holds⟩ := reachable.moves (Pair.create_holds X supported ..)
  obtain ⟨h, stage, p, s, ⟨_, agree, acknowledged⟩, here⟩ := holds.written submits alone acked
  obtain ⟨e, inside, rfl, named, digest⟩ := acknowledged.entry agree.primaryOrigin
  obtain ⟨b, moves, held⟩ := run.moves (here.holds agree)
  have mem : e ∈ b.history.entries := moves.history_grows.entries_prefix.subset inside
  have mem' : e ∈ b.phase.secondary.entries := b.history_grows.entries_prefix.subset mem
  refine ⟨named.symm, held.agree.primary.receipted mem named digest,
    held.agree.secondary.receipted mem' named digest, ?_⟩
  intro retry choices' batch' submits' named' alone'
  refine ⟨?_, ?_⟩
  · intro ours changes
    obtain ⟨_, linked⟩ := b.history.chained.linked mem
    have same : batch' = e.batch := by
      obtain ⟨identity', id', changes'⟩ := batch'
      have first := ours.trans linked.identity_eq.symm
      have second := named'.trans named
      have third := changes.trans (fingerprints digest).symm
      dsimp only at first second third
      rw [first, second, third]
    rw [same] at submits'
    exact held.repeats mem submits' alone'
  · intro other
    refine held.refuses mem submits' alone' (named'.trans named) ?_
    rw [digest]
    exact other

namespace Sample

theorem engine_fingerprint_injective : Function.Injective engine.requestFingerprint :=
  Term.list_injective Term.change_injective

def ackedPair (batch : Batch Change ℕ) : Pair Term :=
  (Command.commit batch).exec engine steady emptyPair

theorem ackedPair_acknowledged :
    (Command.commit (placeBatch "a")).acknowledged engine steady emptyPair = some ⟨"a", 1⟩ := by
  decide +kernel

theorem acknowledged_once_repeated :
    (Command.write (placeBatch "a")).Repeats engine steady (ackedPair (placeBatch "a")) ⟨"a", 1⟩ ∧
      (Command.commit (emptyBatch "a")).Refuses engine steady (ackedPair (placeBatch "a")) := by
  have kept := acknowledged_once (by decide) engine_fingerprint_injective .refl
    (fun n => (steady_calm n).alone) rfl ackedPair_acknowledged .refl
  exact ⟨(kept.2.2.2 (.write (placeBatch "a")) steady _ rfl rfl
      (fun n => (steady_calm n).alone)).1 rfl rfl,
    (kept.2.2.2 (.commit (emptyBatch "a")) steady _ rfl rfl
      (fun n => (steady_calm n).alone)).2 (by decide)⟩

/-- A publication cut short after the primary's capture. -/
def capturedPair : Pair Term :=
  Command.publishBase.exec engine (stopping 18) (ackedPair (emptyBatch "a"))

/-- Another request, decided on the primary and only staged on the secondary. -/
def decidedPair : Pair Term :=
  (Command.commit (placeBatch "b")).exec engine (losing 13) (ackedPair (emptyBatch "a"))

/-- With every call answered a retry through `write` is still turned away while the
capture waits, and a refused `commit` first finishes the other request. -/
theorem retry_held_back :
    (Command.commit (emptyBatch "a")).acknowledged engine steady emptyPair = some ⟨"a", 1⟩ ∧
    (Pair.write engine (emptyBatch "a") steady 0 capturedPair).value? =
      some (.ok (.error ⟨503, "a", .unknown, true, "peer_unavailable_or_recovery_required"⟩)) ∧
    (Command.commit (placeBatch "a")).acknowledged engine steady decidedPair = none ∧
    decidedPair.secondary.store.data = View.empty ∧
    ((Command.commit (placeBatch "a")).exec engine steady decidedPair).secondary.store.data =
      ⟨[⟨"p", "n"⟩], []⟩ ∧
    decidedPair.secondary.store.receipts.length = 1 ∧
    ((Command.commit (placeBatch "a")).exec engine steady decidedPair).secondary.store.receipts.length
      = 2 := by
  decide +kernel

end Sample

end TerrapiVault.Replication
