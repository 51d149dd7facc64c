import TerrapiVault.Replication.NodeRefusals
import TerrapiVault.Replication.PairRecovery

/-! `commit` and `Coordinator::write` on a pair in any protocol state: what a result,
a failure and an early stop say about the pair. -/
namespace TerrapiVault.Replication

open CrashLogic Protocol

variable {D : Type} [DecidableEq D] {X : Engine D} {identity : Identity ℕ}
  {h : History X.schema identity} {stage : Publication.Stage D} {e : RefEntry D}
  {next : h.Next e} {fail : Fault → Pair D → Prop}

theorem Node.Sound.completedResult_cases {node : Node D} {tail : Option (RefEntry D)}
    (sound : node.Sound h tail) (batch : Batch Change ℕ) :
    (∃ fault, node.completedResult X batch = .error fault ∧ ¬Divergence fault) ∨
      (∃ r ∈ h.receipts, r.result.operationId = batch.operationId ∧
        r.requestDigest = X.schema.requestFingerprint batch.changes ∧
        node.completedResult X batch = .ok (some r.result)) ∨
      (batch.operationId ∉ h.operations ∧ node.completedResult X batch = .ok none) := by
  unfold completedResult
  rw [sound.identity_eq]
  by_cases valid : batch.identity = identity ∧ batch.operationId ≠ ""
  · by_cases known : batch.operationId ∈ h.operations
    · obtain ⟨r, mem, same⟩ := List.mem_map.mp known
      have found : node.store.receipt? batch.operationId = some r := by
        rw [sound.store.receipt?_eq]
        refine Table.find?_unique mem (decide_eq_true same) ?_
        intro r' mem' same'
        exact List.inj_on_of_nodup_map h.operations_nodup mem' mem
          ((of_decide_eq_true same').trans same.symm)
      have answer := sound.store.completedResult_known valid found
      by_cases digest : r.requestDigest = X.schema.requestFingerprint batch.changes
      · rw [if_pos digest] at answer
        exact .inr (.inl ⟨r, mem, same, digest, answer⟩)
      · rw [if_neg digest] at answer
        exact .inl ⟨_, answer, by decide⟩
    · exact .inr (.inr ⟨known, sound.store.completedResult_absent valid known⟩)
  · refine .inl ⟨.message "invalid batch identity", ?_, by decide⟩
    rw [Store.completedResult, ensure_not valid]
    rfl

namespace Pair

variable {allow : Choice D → Prop} {intent : Intent} {a b : Position X identity}
  {refusal : Fault → Pair D → Prop} {p s : Node D} {batch : Batch Change ℕ}

/-- A receipt for the request, with this result. -/
def Acknowledged (batch : Batch Change ℕ) (r : WriteResult) (h : History X.schema identity) :
    Prop :=
  ∃ receipt ∈ h.receipts, receipt.result = r ∧ r.operationId = batch.operationId ∧
    receipt.requestDigest = X.schema.requestFingerprint batch.changes

/-- Both nodes have applied the request. -/
def Written (batch : Batch Change ℕ) (a : Position X identity) (r : WriteResult)
    (pair : Pair D) : Prop :=
  ∃ h stage p s, (Steps (.write batch) a ⟨h, .idle, stage⟩ ∧ Agree ⟨h, .idle, stage⟩ p s ∧
    Acknowledged batch r h) ∧ Here p s pair

/-- The entry prepared for a request, and where the pair then is. -/
def Proposed (batch : Batch Change ℕ) (h : History X.schema identity)
    (stage : Publication.Stage D) (s : Node D) (e : RefEntry D) (p : Node D) : Prop :=
  e.batch = batch ∧ e.state = .prepared ∧ stage.Idle ∧
    ∃ next : h.Next e, Agree ⟨h, .prepared e next, stage⟩ p s

variable (alone : ∀ choice, allow choice → choice.others = [])
include alone

theorem prepare_spec (steps : Steps (.write batch) a ⟨h, .idle, stage⟩)
    (agree : Agree ⟨h, .idle, stage⟩ p s) (absent : batch.operationId ∉ h.operations) :
    Triple allow (Crashed allow (.write batch) a) (Here p s) (onPrimary X (.prepare batch))
      (fun e pair => ∃ p', Proposed batch h stage s e p' ∧ Here p' s pair)
      (Failed allow (.write batch) a fun fault _ => ¬Divergence fault) := by
  refine primary_try (c := .prepare batch) alone steps agree (Proposed batch h stage s) ?_ ?_
  · intro random e p' ok
    obtain ⟨same, prepared, idle, next, agree'⟩ := agree.prepare ok absent
    exact ⟨⟨same, prepared, idle, next, agree'⟩, _,
      .single (.prepare next (by rw [same]) idle), agree'⟩
  · intro random fault failed pair here
    exact ⟨.inr (agree.primary.prepare_error failed), _, steps, here.holds agree⟩

theorem stage_spec (steps : Steps intent a ⟨h, .prepared e next, stage⟩)
    (agree : Agree ⟨h, .prepared e next, stage⟩ p s) (prepared : e.state = .prepared) :
    Triple allow (Crashed allow intent a) (Here p s) (onSecondary X (.stage e))
      (fun _ pair => ∃ s', Agree ⟨h, .staged e next, stage⟩ p s' ∧ Here p s' pair)
      (Failed allow intent a fun fault _ => ¬Divergence fault) := by
  have same : e.withState .prepared = e := by rw [← prepared]; rfl
  refine secondary_try alone steps agree (fun _ s' => Agree ⟨h, .staged e next, stage⟩ p s')
    ?_ ?_
  · intro random r s' ok
    have agree' := agree.staged rfl ok
    exact ⟨agree', _, .single .stage, agree'⟩
  · intro random fault failed _ _
    rw [← same] at failed
    exact agree.stage_error failed

/-- From the decision on nothing but a lost reply can fail. -/
theorem applyBoth_spec (steps : Steps intent a ⟨h, .decided e next, stage⟩)
    (agree : Agree ⟨h, .decided e next, stage⟩ p s) (refusal : Fault → Pair D → Prop) :
    Triple allow (Crashed allow intent a) (Here p s) (applyBoth X (e.withState .decided))
      (fun u pair => u = () ∧ ∃ p' s', (Steps intent a ⟨h.push e next, .idle, stage⟩ ∧
        Agree ⟨h.push e next, .idle, stage⟩ p' s') ∧ Here p' s' pair)
      (Failed allow intent a refusal) := by
  refine .known (secondary_step alone steps agree (fun _ => agree.land) (.single .land)) ?_
  refine .any fun s' => .given fun agree => ?_
  have steps := steps.tail .land
  refine (primary_step (c := .apply (e.withState .decided)) alone steps agree
    (fun _ => agree.finish) (.single .finish)).strengthen ?_
  intro u pair ⟨same, p', agree, here⟩
  exact ⟨same, p', s', ⟨steps.tail .finish, agree⟩, here⟩

omit [DecidableEq D] in
omit alone in
theorem acknowledged_push (next : h.Next e) (same : e.batch = batch) :
    Acknowledged batch ⟨e.batch.operationId, e.sequence⟩ (h.push e next) := by
  subst same
  exact ⟨e.receipt X.schema, by simp, rfl, rfl, rfl⟩

omit alone in
theorem receipt_pushed (agree : Agree ⟨h.push e next, .idle, stage⟩ p s) (random : Bytes32) :
    (Call.receipt e.batch.operationId).run X p random = .ok (some (e.receipt X.schema), p) := by
  refine Call.reading_of ?_
  have applied : e.withState .applied ∈ (h.push e next).entries := by simp
  rw [agree.primary.receipt_eq]
  exact congrArg Except.ok (agree.primary.store.receipt?_entry (e := e.withState .applied) applied)

theorem replicate_spec (steps : Steps (.write batch) a ⟨h, .idle, stage⟩)
    (agree : Agree ⟨h, .idle, stage⟩ p s) (absent : batch.operationId ∉ h.operations) :
    Triple allow (Crashed allow (.write batch) a) (Here p s) (replicate X batch)
      (Written batch a) (Failed allow (.write batch) a fun fault _ => ¬Divergence fault) := by
  refine .bind (prepare_spec alone steps agree absent) fun e => ?_
  refine .any fun p' => .given fun ⟨same, prepared, idle, next, agree⟩ => ?_
  have steps := steps.tail (.prepare next (by rw [same]) idle)
  refine .bind (stage_spec alone steps agree prepared) fun _ => ?_
  refine .any fun s' => .given fun agree => ?_
  have steps := steps.tail .stage
  refine .known (primary_step alone steps agree (fun _ => agree.decide)
    (.single (.decide (by rw [same])))) ?_
  refine .any fun p'' => .given fun agree => ?_
  have steps := steps.tail (.decide (by rw [same]))
  refine .known (applyBoth_spec alone steps agree _) ?_
  refine .any fun p' => .any fun s' => .given fun ⟨steps, agree⟩ => ?_
  refine .known (primary_read alone steps agree (receipt_pushed agree)) ?_
  exact Triple.pure _ fun _ here =>
    ⟨h.push e next, stage, p', s', ⟨steps, agree, acknowledged_push next same⟩, here⟩

theorem commit_spec :
    Triple allow (Crashed allow (.write batch) a) (Since (.write batch) a) (commit X batch)
      (Written batch a) (Failed allow (.write batch) a fun fault _ => ¬Divergence fault) := by
  refine recover_then alone fun _ h stage p s steps agree => ?_
  rcases agree.primary.completedResult_cases batch with
    ⟨fault, failed, refused⟩ | ⟨r, mem, same, digest, found⟩ | ⟨absent, none⟩
  · exact .bind (primary_error alone steps agree (fun _ => Call.reading_error failed)
      fun _ _ => refused) fun _ _ _ _ _ => False.elim
  · refine .known (primary_read alone steps agree fun _ => Call.reading_of found) ?_
    exact Triple.pure _ fun _ here =>
      ⟨h, stage, p, s, ⟨steps, agree, r, mem, rfl, same, digest⟩, here⟩
  · refine .known (primary_read alone steps agree fun _ => Call.reading_of none) ?_
    exact replicate_spec alone steps agree absent

/-! `Coordinator::write`. -/

open Coordinator

/-- The failure reported while the primary is `p`. -/
def unavailability (p : Node D) (id : String) : WriteFailure :=
  ⟨503, id, outcome (.ok (p.store.log.find? fun e => e.batch.operationId = id))
    (.ok (p.store.receipt? id)), true, "peer_unavailable_or_recovery_required"⟩

/-- A failure names the request, and one that says it was not accepted is right. -/
def Refused (batch : Batch Change ℕ) (a : Position X identity) (f : WriteFailure)
    (pair : Pair D) : Prop :=
  f.operationId = batch.operationId ∧ ∃ b, Steps (.write batch) a b ∧ Holds b pair ∧
    (f.statusCode = 503 → f.outcome = .notAccepted → batch.operationId ∉ b.committed.operations)

def Answered (batch : Batch Change ℕ) (a : Position X identity) :
    Except WriteFailure WriteResult → Pair D → Prop
  | .ok r, pair => Written batch a r pair
  | .error f, pair => Refused batch a f pair

omit [DecidableEq D] in
omit alone in
/-- The primary alone tells that an operation is not committed. -/
theorem not_committed (agree : Agree b p s) {id : String}
    (answer : (unavailability p id).outcome = .notAccepted) : id ∉ b.committed.operations := by
  unfold unavailability outcome at answer
  cases known : p.store.receipt? id with
  | some r => simp [known] at answer
  | none =>
    simp only [known] at answer
    split_ifs at answer with prepared
    have absent : id ∉ b.history.operations := by
      intro mem
      obtain ⟨r, found, same⟩ := List.mem_map.mp mem
      rw [agree.primary.store.receipt?_eq, List.find?_eq_none] at known
      exact known r found (decide_eq_true same)
    have pushed : ∀ (e : RefEntry D), b.phase.primaryTail = some (e.withState .decided) →
        id ∉ b.history.operations ++ [e.batch.operationId] := by
      intro e tail mem
      rcases List.mem_append.mp mem with old | new
      · exact absent old
      · have inside : e.withState .decided ∈ p.store.log :=
          agree.primary.store.mem_log.mpr (.inr tail)
        have found : p.store.log.find? (fun e => e.batch.operationId = id) =
            some (e.withState .decided) := by
          refine Table.find?_unique inside (decide_eq_true (List.mem_singleton.mp new).symm) ?_
          intro row mem same
          exact agree.primary.store.operation_unique mem inside
            ((of_decide_eq_true same).trans (List.mem_singleton.mp new))
        have state := prepared _ found
        simp [Entry.withState] at state
    obtain ⟨h, phase, stage⟩ := b
    cases phase with
    | idle => exact absent
    | prepared e next => exact absent
    | staged e next => exact absent
    | decided e next =>
      simp only [Position.committed, Phase.committed, History.push_operations]
      exact pushed e rfl
    | landed e next =>
      simp only [Position.committed, Phase.committed, History.push_operations]
      exact pushed e rfl

omit alone in
theorem operation_run (agree : Agree b p s) (id : String) (random : Bytes32) :
    (Call.operation id).run X p random =
      .ok (p.store.log.find? fun e => e.batch.operationId = id, p) :=
  Call.reading_of (agree.primary.store.byOperation_eq id)

omit alone in
theorem receipt_run (agree : Agree b p s) (id : String) (random : Bytes32) :
    (Call.receipt id).run X p random = .ok (p.store.receipt? id, p) :=
  Call.reading_of (agree.primary.receipt_eq id)

theorem unavailable_spec (id : String) :
    Triple allow (Crashed allow intent a) (Waiting intent a p) (unavailable X id)
      (fun f pair => f = unavailability p id ∧ Waiting intent a p pair) fail := by
  refine .known (.attempt_known (primary_wait alone fun b s random agree =>
    operation_run agree id random)) ?_
  refine .known (.attempt_known (primary_wait alone fun b s random agree =>
    receipt_run agree id random)) ?_
  exact Triple.pure _ fun _ waiting => ⟨rfl, waiting⟩

/-- A refusal changes nothing and is right about what is not accepted. -/
theorem refuse_since (id : String) :
    Triple allow (Crashed allow intent a) (Since intent a) (refuse X id)
      (fun answer pair => ∃ f, answer = .error f ∧ f.operationId = id ∧
        ∃ b, Steps intent a b ∧ Holds b pair ∧
          (f.outcome = .notAccepted → id ∉ b.committed.operations)) fail := by
  refine fixPrimary fun p _ => ?_
  refine .known (unavailable_spec alone id) ?_
  refine Triple.pure _ fun pair waiting => ⟨_, rfl, rfl, ?_⟩
  obtain ⟨known, b, steps, holds⟩ := waiting
  have agree := holds.agree
  rw [known] at agree
  exact ⟨b, steps, holds, not_committed agree⟩

theorem refuse_spec :
    Triple allow (Crashed allow (.write batch) a) (Since (.write batch) a)
      (refuse X batch.operationId) (Answered batch a) fail := by
  refine (refuse_since alone batch.operationId).strengthen ?_
  rintro answer pair ⟨f, rfl, id, b, steps, holds, absent⟩
  exact ⟨id, b, steps, holds, fun _ => absent⟩

theorem refuse_failed {fault : Fault} :
    Triple allow (Crashed allow (.write batch) a) (Failed allow (.write batch) a refusal fault)
      (refuse X batch.operationId) (Answered batch a) fail :=
  (refuse_spec alone).weaken fun _ failed => failed.2

omit alone in
theorem invalid_answer {pair : Pair D} (since : Since (.write batch) a pair) :
    Answered batch a (.error (invalid batch.operationId)) pair := by
  obtain ⟨b, steps, holds⟩ := since
  exact ⟨rfl, b, steps, holds, by simp [invalid]⟩

theorem conclude_spec (steps : Steps (.write batch) a ⟨h, .staged e next, stage⟩)
    (agree : Agree ⟨h, .staged e next, stage⟩ p s) (same : e.batch = batch) :
    Triple allow (Crashed allow (.write batch) a) (Here p s) (conclude X batch.operationId)
      (Answered batch a) fail := by
  have request : Intent.write batch = .write e.batch := by rw [same]
  rw [← congrArg Batch.operationId same]
  refine .known (.attempt_known (primary_step alone steps agree (fun _ => agree.decide)
    (.single (.decide request)))) ?_
  refine .any fun p' => .given fun agree => ?_
  have steps := steps.tail (.decide request)
  refine .bind (applyBoth_spec alone steps agree fun _ _ => False).attempt fun r => ?_
  cases r with
  | error fault =>
    rw [same]
    exact refuse_failed alone
  | ok u =>
    refine .given fun _ => .any fun p'' => .any fun s'' => .given fun ⟨steps, agree⟩ => ?_
    refine .known (.attempt_known (primary_read alone steps agree (receipt_pushed agree))) ?_
    exact Triple.pure _ fun _ here =>
      ⟨h.push e next, stage, p'', s'', ⟨steps, agree, acknowledged_push next same⟩, here⟩

theorem propose_spec (steps : Steps (.write batch) a ⟨h, .idle, stage⟩)
    (agree : Agree ⟨h, .idle, stage⟩ p s) (absent : batch.operationId ∉ h.operations) :
    Triple allow (Crashed allow (.write batch) a) (Here p s) (propose X batch)
      (Answered batch a) fail := by
  refine .bind (prepare_spec alone steps agree absent).attempt fun r => ?_
  cases r with
  | error fault =>
    cases fault with
    | constraintViolation => exact Triple.pure _ fun _ failed => invalid_answer failed.2
    | message text => exact refuse_failed alone
    | sqlite => exact refuse_failed alone
    | unanswered => exact refuse_failed alone
  | ok e =>
    refine .any fun p' => .given fun ⟨same, prepared, idle, next, agree⟩ => ?_
    have steps := steps.tail (.prepare next (by rw [same]) idle)
    refine .bind (stage_spec alone steps agree prepared).attempt fun r => ?_
    cases r with
    | error fault => exact refuse_failed alone
    | ok u =>
      refine .any fun s' => .given fun agree => ?_
      exact conclude_spec alone (steps.tail .stage) agree same

/-- Writes are ready once no captured base waits for its confirmation. -/
theorem reconcile_spec (other : intent ≠ .publish) :
    Triple allow (Crashed allow intent a) (Since intent a) (reconcile X)
      (fun _ => Resolved intent a) (Failed allow intent a fun _ _ => ¬a.stage.Idle) := by
  refine recover_then alone fun _ h stage p s steps agree => ?_
  have record := (steps.primaryRecord_eq other).1
  by_cases idle : a.stage.Idle
  · have ready : p.publicationIdle = .ok () := by
      refine ensure_of ?_
      rw [agree.paired.primaryRecord, record]
      exact idle
    refine .known (primary_read alone steps agree fun _ => Call.reading_of ready) ?_
    exact Triple.pure _ fun _ here => ⟨h, stage, p, s, ⟨steps, agree⟩, here⟩
  · have busy : ¬∀ r ∈ p.published, r.phase = .confirmed := by
      rw [agree.paired.primaryRecord, record]
      exact idle
    exact .bind (primary_error alone steps agree (fun _ => Call.reading_error (ensure_not busy))
      fun _ _ => idle) fun _ _ _ _ _ => False.elim

theorem submit_spec :
    Triple allow (Crashed allow (.write batch) a) (Since (.write batch) a) (submit X batch)
      (Answered batch a) fail := by
  refine .bind (reconcile_spec alone (by simp)).attempt fun r => ?_
  cases r with
  | error fault => exact refuse_failed alone
  | ok completed =>
    refine .any fun h => .any fun stage => .any fun p => .any fun s =>
      .given fun ⟨steps, agree⟩ => ?_
    rcases agree.primary.completedResult_cases batch with
      ⟨fault, failed, refused⟩ | ⟨r, mem, same, digest, found⟩ | ⟨absent, none⟩
    · have failing : Triple _ _ _ _ _ (Failed allow (.write batch) a fun e _ => ¬Divergence e) :=
        primary_error (c := .completedResult batch) alone steps agree
          (fun _ => Call.reading_error failed) fun _ _ => refused
      refine .bind failing.attempt fun r => ?_
      cases r with
      | ok value => exact fun _ _ _ _ => False.elim
      | error fault => exact refuse_failed alone
    · refine .known (.attempt_known (primary_read alone steps agree fun _ =>
        Call.reading_of found)) ?_
      exact Triple.pure _ fun _ here =>
        ⟨h, stage, p, s, ⟨steps, agree, r, mem, rfl, same, digest⟩, here⟩
    · refine .known (.attempt_known (primary_read alone steps agree fun _ =>
        Call.reading_of none)) ?_
      exact propose_spec alone steps agree absent

theorem write_spec :
    Triple allow (Crashed allow (.write batch) a) (Since (.write batch) a) (write X batch)
      (Answered batch a) fail := by
  refine fixPrimary fun p _ => ?_
  refine .known (.attempt_known (primary_wait alone fun b s random agree =>
    operation_run agree batch.operationId random)) ?_
  refine .known (.look fun pair waiting => congrArg Node.identity waiting.1) ?_
  split_ifs
  · exact Triple.pure _ fun _ waiting => invalid_answer waiting.2
  · refine .known (.attempt_known (primary_wait alone fun b s random agree =>
      receipt_run agree batch.operationId random)) ?_
    dsimp only
    split_ifs
    · exact Triple.pure _ fun _ waiting => invalid_answer waiting.2
    · exact (submit_spec alone).weaken fun _ waiting => waiting.2

end Pair

end TerrapiVault.Replication
