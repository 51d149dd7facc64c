import TerrapiVault.Replication.TransferSteps
import TerrapiVault.Replication.Sample

/-! A database written by its own node opens again. The consistency of the tables is
stated on the rows themselves; the one way to lose it is a `stage` that appends an
operation the node already holds a receipt for. -/
namespace TerrapiVault.Replication

variable {D : Type}

/-- The tables agree with the checkpoint recomputed from them. -/
structure Store.Consistent {C V I : Type} (S : Schema C V I D) (st : Store C V I D)
    (cp : Checkpoint I D) : Prop where
  contiguous : (st.log.filter fun e => baseFloor st.base < e.sequence).map Entry.sequence =
    List.range' (baseFloor st.base + 1)
      (st.log.filter fun e => baseFloor st.base < e.sequence).length
  onePending : (st.log.filter fun e => e.state ≠ .applied).length ≤ 1
  pendingLast : ∀ e ∈ st.log, e.state ≠ .applied → st.log.getLast? = some e
  linked : st.log.IsChain fun previous e => e.before = previous.after
  receiptSequences : st.receipts.map (·.result.sequence) = List.range' 1 cp.sequence
  receiptOperations : (st.receipts.map (·.result.operationId)).Nodup
  receiptEntries : ∀ e ∈ st.log, e.state = .applied →
    e.receipt S ∈ st.receipts ∧ e.sequence ≤ cp.sequence
  appliedPrefix : ∀ e ∈ st.log, e.sequence ≤ cp.sequence → e.state = .applied
  view : S.viewDigest st.data = cp.viewDigest
  lastApplied : ∀ e ∈ st.log, e.sequence = cp.sequence → S.viewDigest st.data = e.after

namespace Anchor.Chained

variable {C V I : Type} {S : Schema C V I D} {identity : Identity I} {a : Anchor D}
  {entries : List (Entry C I D)}

theorem isChain (h : Chained S identity a entries) :
    entries.IsChain fun previous e => e.before = previous.after := by
  induction entries generalizing a with
  | nil => exact .nil
  | cons first rest ih =>
    cases rest with
    | nil => exact .singleton _
    | cons second rest => exact .cons_cons h.2.1.before_eq (ih h.2)

theorem last_after (h : Chained S identity a entries) {e : Entry C I D} (mem : e ∈ entries)
    (last : e.sequence = (a.run S entries).sequence) : (a.run S entries).view = e.after := by
  induction entries generalizing a with
  | nil => simp at mem
  | cons first rest ih =>
    rw [run_cons] at last ⊢
    rcases List.mem_cons.mp mem with rfl | later
    · have sequence := h.1.sequence_eq
      rw [run_sequence] at last
      have none : rest = [] := by
        refine List.eq_nil_of_length_eq_zero ?_
        simp only [advance] at last
        omega
      rw [none]
      rfl
    · exact ih h.2 later last

end Anchor.Chained

theorem Store.Represents.consistent {C V I : Type} {S : Schema C V I D} {identity : Identity I}
    {st : Store C V I D} {h : History S identity} {tail : Option (Entry C I D)}
    (rep : st.Represents h tail) : st.Consistent S h.checkpoint where
  contiguous := by
    rw [rep.consecutive.filter_gt]
    exact rep.above_consecutive.map_key
  onePending := by
    have settled : h.entries.filter (fun e => e.state ≠ .applied) = [] := by
      rw [List.filter_eq_nil_iff]
      intro e mem
      simp [h.applied e mem]
    rw [rep.log_eq, List.filter_append, settled, List.nil_append]
    refine Nat.le_trans (List.length_filter_le _ _) ?_
    cases tail <;> simp
  pendingLast := by
    intro e mem pending
    rcases rep.mem_log.mp mem with done | last
    · exact absurd (h.applied e done) pending
    · rw [rep.log_eq, last]
      simp
  linked := rep.chained.isChain
  receiptSequences := by
    rw [rep.receipts_eq, h.receipts_numbered.consecutive.map_key, h.receipts_length]
    rfl
  receiptOperations := by
    rw [rep.receipts_eq]
    exact h.operations_nodup
  receiptEntries := by
    intro e mem applied
    rcases rep.mem_log.mp mem with done | last
    · rw [rep.receipts_eq]
      exact ⟨h.mem_receipts done, (h.chained.consecutive.bounds done).2⟩
    · exact absurd applied (rep.pending e last)
  appliedPrefix := by
    intro e mem within
    rcases rep.mem_log.mp mem with done | last
    · exact h.applied e done
    · have sequence := (rep.next e last).linked.sequence_eq
      rw [h.anchor_sequence] at sequence
      rw [h.checkpoint_sequence] at within
      omega
  view := rep.data
  lastApplied := by
    intro e mem last
    rcases rep.mem_log.mp mem with done | pending
    · rw [rep.data]
      exact h.chained.last_after done (last.trans h.anchor_sequence.symm)
    · have sequence := (rep.next e pending).linked.sequence_eq
      rw [h.anchor_sequence] at sequence
      rw [h.checkpoint_sequence] at last
      omega

variable [DecidableEq D] (X : Engine D)

/-- The database passes the recomputation of its checkpoint and the checks of
`Node::open`. -/
structure Node.Reopens (node : Node D) : Prop where
  consistent : ∃ cp, node.store.current X.schema node.identity false = .ok (cp, node.store.data) ∧
    node.store.Consistent X.schema cp
  opens : node.reopen X = .ok ()

/-- Any calls, in any order and with any arguments, as long as no `stage` appends an
operation that already has a receipt. -/
theorem database_reopens (role : Role) (identity : Identity ℕ)
    (supported : identity.schema = 1 ∧ 0 < identity.epoch) (generation revision : Bytes32)
    (calls : List (Call D × Bytes32))
    (fresh : (Node.create role identity generation revision : Node D).FreshRun X calls) :
    ((Node.create role identity generation revision).afterAll X calls).Reopens X := by
  obtain ⟨h, tail, sound⟩ :=
    (Node.create_sound X role supported generation revision).afterAll fresh
  refine ⟨⟨h.checkpoint, ?_, sound.store.consistent⟩, sound.reopen_eq⟩
  rw [sound.identity_eq]
  exact sound.store.current_any

namespace Sample

/-- A receipt restored with a base at sequence 1. -/
def restoredReceipt : OperationReceipt Term := ⟨1, .text "request", 1, ⟨"a", 1⟩⟩

def restoredManifest : Materialized.Manifest Term where
  publication := none
  head := ⟨none, pairIdentity, draw 0, draw 0, 1⟩
  checkpoint := ⟨1, pairIdentity, 1, engine.schema.viewDigest View.empty, .text "journal",
    engine.hash (.receipts [restoredReceipt])⟩
  places := 0
  features := 0
  receipts := 1

/-- The next entry after the restored base; it leaves the view as it is. -/
def secondEntry (id : String) : Entry Change ℕ Term :=
  let view := engine.schema.viewDigest View.empty
  { batch := emptyBatch id
    sequence := 2
    before := view
    after := view
    changeset := []
    digest := engine.hash (.entry (emptyBatch id) 2 view view [])
    state := .prepared }

/-- A materialized restore followed by one `stage`. -/
def restoreThenStage (id : String) : List (Call Term × Bytes32) :=
  [(.materializedBegin restoredManifest, draw 1),
    (.materializedChunk (draw 1) ⟨restoredManifest, 0, [.receipt restoredReceipt]⟩, draw 0),
    (.materializedFinish (draw 1), draw 0),
    (.stage (secondEntry id), draw 2)]

set_option maxRecDepth 10000 in
theorem database_reopens_restored :
    ((Node.create .secondary pairIdentity (draw 0) (draw 0)).afterAll engine
      (restoreThenStage "b")).Reopens engine :=
  database_reopens engine .secondary pairIdentity (by decide) (draw 0) (draw 0)
    (restoreThenStage "b") ⟨trivial, trivial, trivial, fun _ => rfl, trivial⟩

set_option maxRecDepth 10000 in
/-- The restored operation is staged a second time; the row is accepted and the
database does not open again. -/
theorem stage_restored_operation :
    (Call.stage (secondEntry "a")).run engine
        ((Node.create .secondary pairIdentity (draw 0) (draw 0)).afterAll engine
          ((restoreThenStage "a").take 3)) (draw 2) =
      .ok ((), (Node.create .secondary pairIdentity (draw 0) (draw 0)).afterAll engine
        (restoreThenStage "a")) ∧
    ((Node.create .secondary pairIdentity (draw 0) (draw 0)).afterAll engine
      (restoreThenStage "a")).store.current engine.schema pairIdentity false =
      .error (.message "receipt/journal mismatch") ∧
    ((Node.create .secondary pairIdentity (draw 0) (draw 0)).afterAll engine
      (restoreThenStage "a")).reopen engine = .error (.message "receipt/journal mismatch") :=
  ⟨rfl, rfl, rfl⟩

end Sample

end TerrapiVault.Replication
