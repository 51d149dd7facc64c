import TerrapiVault.Replication.Agreement

/-! How `prepare` and `stage` can fail on a pair without divergence. -/
namespace TerrapiVault.Replication

variable {D : Type} {X : Engine D} {identity : Identity ℕ}

/-- The errors that report two different journals. -/
def Divergence (fault : Fault) : Prop :=
  fault = .message "divergent journals" ∨ fault = .message "divergent log" ∨
    fault = .message "secondary ahead of primary journal"

instance (fault : Fault) : Decidable (Divergence fault) := inferInstanceAs (Decidable (_ ∨ _))

variable {fault : Fault}

theorem View.execute_error {jsonValid : String → Bool} {view : View} {change : Change}
    (failed : view.execute jsonValid change = .error fault) : fault = .constraintViolation := by
  cases change with
  | putPlace id name => simp [execute] at failed
  | deletePlace id => simp [execute] at failed
  | putFeature id placeId geojson =>
    simp only [execute, Checked.bind_eq_error, Checked.ensure_eq_error, pure_eq,
      reduceCtorEq, and_false, exists_false, or_false] at failed
    exact failed.2.symm

theorem View.execute_all_error {jsonValid : String → Bool} {changes : List Change} {view : View}
    (failed : changes.foldlM (View.execute jsonValid) view = .error fault) :
    fault = .constraintViolation := by
  induction changes generalizing view with
  | nil => simp at failed
  | cons change rest ih =>
    rw [List.foldlM_cons, Checked.bind_eq_error] at failed
    rcases failed with first | ⟨view', _, later⟩
    · exact execute_error first
    · exact ih later

theorem ReplayFault.not_divergence (h : ReplayFault fault) : ¬Divergence fault := by
  rcases h with rfl | rfl | rfl | rfl <;> decide

namespace Store

variable {C V I : Type} [DecidableEq I] [DecidableEq D] {S : Schema C V I D}

theorem save_error {st : Store C V I D} {e : Entry C I D} {random : Bytes32}
    (pending : e.state ≠ .applied) (failed : st.save S e random = .error fault) :
    ¬Divergence fault := by
  simp only [save, write, Entry.validate, if_neg pending, Checked.bind_eq_error, ensure_eq_error,
    pure_eq, reduceCtorEq, and_false, exists_false, or_false] at failed
  rcases failed with ⟨_, rfl⟩ | ⟨_, _, (⟨_, rfl⟩ | ⟨_, _, _, rfl⟩) | ⟨_, _, admitted⟩⟩
  · decide
  · decide
  · decide
  · unfold admitRow at admitted
    split at admitted
    · rw [ensure_eq_error] at admitted
      rw [← admitted.2]
      decide
    · rw [Checked.ensure_eq_error] at admitted
      rw [← admitted.2]
      decide

end Store

namespace Node.Sound

variable [DecidableEq D] {node : Node D} {h : History X.schema identity}
  {tail : Option (RefEntry D)} {random : Bytes32} {fault : Fault}

theorem prepare_error (sound : node.Sound h tail) {batch : Batch Change ℕ}
    (failed : node.prepare X batch random = .error fault) : ¬Divergence fault := by
  simp only [prepare, sound.admission_eq, sound.store.byOperation_eq, sound.store.getReceipt_eq,
    sound.journalHead_eq, ok_bind, Checked.bind_eq_error, ensure_eq_error] at failed
  rcases failed with ⟨_, rfl⟩ | ⟨_, _, ⟨_, rfl⟩ | ⟨_, _, failed⟩⟩
  · decide
  · decide
  cases found : node.store.log.find? fun e => e.batch.operationId = batch.operationId with
  | some old =>
    have mem := List.mem_of_find?_eq_some found
    have validated : ∃ r, node.store.validateEntry X.schema old = .ok r := by
      rcases sound.store.mem_log.mp mem with done | last
      · exact ⟨_, sound.store.validateEntry_entry done⟩
      · exact ⟨_, sound.store.validateEntry_fresh (sound.store.pending old last)
          (sound.store.next old last).fresh⟩
    obtain ⟨r, validated⟩ := validated
    simp only [found, validated, ok_bind, Checked.bind_eq_error, ensure_eq_error,
      pure_eq, reduceCtorEq, and_false, exists_false, or_false] at failed
    rw [← failed.2]
    decide
  | none =>
    simp only [found, publicationIdle, Checked.bind_eq_error, ensure_eq_error, pure_eq,
      reduceCtorEq, and_false, exists_false, or_false] at failed
    rcases failed with ⟨_, rfl⟩ | ⟨_, _, ⟨_, rfl⟩ | ⟨_, _, ⟨_, rfl⟩ | ⟨_, _, ⟨_, rfl⟩ | ⟨_, _,
      captured | ⟨⟨next, changeset⟩, _, small | ⟨_, _, saved⟩⟩⟩⟩⟩⟩
    · decide
    · decide
    · decide
    · decide
    · simp only [Engine.schema, Checked.bind_eq_error, pure_eq, reduceCtorEq, and_false,
        exists_false, or_false] at captured
      rw [View.execute_all_error captured]
      decide
    · simp only [checkEntrySize, ensure_eq_error] at small
      rw [← small.2]
      decide
    · exact Store.save_error (by simp [preparedEntry]) saved

end Node.Sound

namespace Protocol.Agree

variable [DecidableEq D] {p s : Node D} {h : History X.schema identity} {e : RefEntry D}
  {next : h.Next e} {stage : Publication.Stage D} {random : Bytes32} {fault : Fault}

theorem stage_eq (agree : Agree ⟨h, .prepared e next, stage⟩ p s) (state : State) :
    s.stage X (e.withState state) random = (do
      let _ ← X.schema.replayData s.store.data e.before e.after e.changeset
      let store ← s.store.save X.schema (e.withState .prepared) random
      pure ((), { s with store := store })) := by
  have linked := next.linked.withState state
  have valid : (e.withState state).validate X.schema s.identity = .ok () := by
    rw [agree.secondary.identity_eq]
    exact Entry.validate_eq_ok.mpr ⟨linked.identity_eq, linked.digest_eq⟩
  have sequence := linked.sequence_eq
  rw [h.anchor_sequence] at sequence
  have vacant : s.store.bySequence X.schema (e.withState state).sequence = .ok none := by
    refine agree.secondary.store.bySequence_beyond ?_ linked.sequence_lt
    simp only [Phase.secondary, Phase.secondaryTail, Option.toList_none, List.length_nil]
    omega
  have admitted : s.publicationIdle = .ok () := by
    refine ensure_of ?_
    rw [agree.paired.secondaryRecord]
    exact (agree.idle (by simp)).secondary
  obtain ⟨head, found, length⟩ : ∃ head, s.journalHead = .ok head ∧ head.length = h.length :=
    ⟨_, agree.secondary.journalHead_eq, rfl⟩
  have order : (e.withState state).sequence = head.length + 1 ∧ s.store.resolved = true :=
    ⟨by omega, agree.secondary.store.resolved_iff.mpr rfl⟩
  have base : X.schema.viewDigest s.store.data = (e.withState state).before :=
    agree.secondary.store.data.trans linked.before_eq.symm
  rw [Node.stage, ensure_of agree.paired.secondaryRole, ok_bind, valid, ok_bind,
    linked.fits, ok_bind, agree.secondary.admission_eq, ok_bind,
    agree.paired.secondaryIdle.eq, ok_bind, vacant, ok_bind]
  dsimp only
  rw [admitted, ok_bind, found, ok_bind, ensure_of order, ok_bind,
    ensure_of base, ok_bind]
  rfl

/-- The secondary follows the primary, so only the changeset itself can be refused. -/
theorem stage_error (agree : Agree ⟨h, .prepared e next, stage⟩ p s) {state : State}
    (failed : s.stage X (e.withState state) random = .error fault) : ¬Divergence fault := by
  have base : X.schema.viewDigest s.store.data = e.before :=
    agree.secondary.store.data.trans next.linked.before_eq.symm
  rw [agree.stage_eq] at failed
  simp only [Checked.bind_eq_error, Schema.replayData, ensure_of base, ok_bind,
    ensure_eq_error, pure_eq, reduceCtorEq, and_false, exists_false, or_false] at failed
  rcases failed with (replay | ⟨_, _, _, rfl⟩) | ⟨_, _, saved⟩
  · exact (X.replay_error _ _ _ replay).not_divergence
  · decide
  · exact Store.save_error (by simp [Entry.withState]) saved

end Protocol.Agree

end TerrapiVault.Replication
