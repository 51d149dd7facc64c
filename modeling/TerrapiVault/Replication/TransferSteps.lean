import TerrapiVault.Replication.Effects

/-! Calls keep a node sound. Staging leaves the journal tables alone; finishing a transfer
rebuilds them from empty ones and clears read admission. -/
namespace TerrapiVault.Replication

variable {D : Type} {X : Engine D} {identity : Identity ℕ}

namespace Node

variable {node : Node D} {h : History X.schema identity} {tail : Option (RefEntry D)}
  {random : Bytes32} {entries : List (RefEntry D)} {st st' : RefStore D}

theorem Sound.refill {node' : Node D} {h' : History X.schema identity}
    {tail' : Option (RefEntry D)} (sound : node.Sound h tail)
    (vacant : node.published = none) (role : node'.role = .secondary)
    (same : node'.identity = node.identity ∧ node'.recovery = node.recovery ∧
      node'.published = node.published ∧ node'.publishedView = node.publishedView ∧
      node'.publishedReceipts = node.publishedReceipts) (rep : node'.store.Represents h' tail') :
    node'.Sound h' tail' := by
  obtain ⟨scope, recovery, published, view, receipts⟩ := same
  have none : node'.published = none := published.trans vacant
  have artifact := sound.publication
  unfold PublicationOf at artifact
  rw [vacant] at artifact
  refine ⟨scope.trans sound.identity_eq, sound.supported, recovery.trans sound.unbound, rep, ?_,
    ?_, fun _ _ _ => none, fun _ _ _ => none⟩
  · unfold PublicationOf
    rw [none, view, receipts]
    exact artifact
  · intro primary
    rw [role] at primary
    simp at primary

section Replay

variable [DecidableEq D]

theorem replayHistory_ok {count : ℕ} (rep : st.Represents h none) (position : h.length = count)
    (ok : replayHistory X identity random count entries st = .ok st') :
    ∃ h' : History X.schema identity, st'.Represents h' none := by
  induction entries generalizing count st h with
  | nil =>
    obtain rfl := Except.ok.inj ok
    exact ⟨h, rep⟩
  | cons e rest ih =>
    simp only [replayHistory, checked_ok, Entry.validate_eq_ok, exists_and_left, exists_const,
      Schema.replayData_eq_ok] at ok
    obtain ⟨⟨scope, digest⟩, fits, ⟨applied, sequence, before⟩, view, ⟨_, _, after⟩, written,
      wrote, stored, inserted, ok⟩ := ok
    have key : e.sequence < 2 ^ 63 ∧ e.batch.operationId ≠ "" := by
      simp only [Store.write, ensure_bind_eq_ok] at wrote
      exact wrote.1.2
    have linked : Anchor.Linked X.schema identity h.anchor e :=
      ⟨scope, digest, key.2, by rw [h.anchor_sequence, position]; exact sequence, key.1,
        before.trans rep.data, fits⟩
    have saved : Store.save X.schema { st with data := view } e random = .ok stored := by
      rw [Store.save, wrote, ok_bind, if_pos applied]
      exact inserted
    obtain ⟨next, grown, -⟩ := rep.save_history linked applied after saved
    exact ih grown (by rw [History.push_length, position]) ok

theorem replaySnapshot_ok {count bytes total size : ℕ} {previous : D} (rep : st.Represents h none)
    (position : h.length = count) (digest : previous = h.anchor.view)
    (ok : replaySnapshot X identity random count bytes previous entries st =
      .ok (total, size, st')) : ∃ h' : History X.schema identity, st'.Represents h' none := by
  induction entries generalizing count bytes previous st h with
  | nil =>
    simp only [replaySnapshot, run_ok] at ok
    obtain ⟨_, _, rfl⟩ := ok
    exact ⟨h, rep⟩
  | cons e rest ih =>
    simp only [replaySnapshot, checked_ok, Entry.validate_eq_ok, exists_and_left, exists_const,
      Schema.replayData_eq_ok] at ok
    obtain ⟨⟨scope, checksum⟩, fits, ⟨applied, sequence, before⟩, view, ⟨_, _, after⟩, stored,
      saved, ok⟩ := ok
    have key : e.sequence < 2 ^ 63 ∧ e.batch.operationId ≠ "" := by
      have wrote := saved
      simp only [Store.save, Store.write, checked_ok] at wrote
      obtain ⟨_, ⟨key, _⟩, _⟩ := wrote
      exact key.2
    have linked : Anchor.Linked X.schema identity h.anchor e :=
      ⟨scope, checksum, key.2, by rw [h.anchor_sequence, position]; exact sequence, key.1,
        before.trans digest, fits⟩
    obtain ⟨next, grown, -⟩ := rep.save_history linked applied after saved
    exact ih grown (by rw [History.push_length, position]) (by simp [Anchor.advance]) ok

omit [DecidableEq D] in
theorem represents_empty (log : st.log = []) (data : st.data = View.empty)
    (receipts : st.receipts = []) (base : st.base = none) :
    st.Represents (History.initial X.schema identity) none where
  log_eq := log
  receipts_eq := receipts
  pending := by simp
  next := by simp
  base := by
    rw [base]
    rfl
  data := by
    rw [data]
    rfl

omit [DecidableEq D] in
theorem insertRow_ok {row : Materialized.Row D} (ok : insertRow X st row = .ok st') :
    ∃ data receipts,
    st' = { st with data := data, receipts := receipts } ∧
      ((st.receipts.map (·.result.operationId)).Nodup →
        (st'.receipts.map (·.result.operationId)).Nodup) := by
  cases row with
  | place p =>
    simp only [insertRow, run_ok] at ok
    obtain ⟨_, _, rfl⟩ := ok
    exact ⟨_, _, rfl, id⟩
  | feature f =>
    simp only [insertRow, run_ok] at ok
    obtain ⟨_, _, rfl⟩ := ok
    exact ⟨_, _, rfl, id⟩
  | receipt r =>
    simp only [insertRow, run_ok, Checked.ensure_eq_ok, exists_and_left, exists_const] at ok
    obtain ⟨_, _, unused, rfl⟩ := ok
    exact ⟨_, _, rfl, fun distinct =>
      Table.nodup_put _ distinct fun old mem => (unused old mem).1⟩

theorem insertRows_ok {manifest : Materialized.Manifest D} {rows : List (ℕ × Materialized.Row D)}
    {count bytes total size : ℕ}
    (ok : insertRows X manifest count bytes rows st = .ok (total, size, st')) : ∃ data receipts,
    st' = { st with data := data, receipts := receipts } ∧
      ((st.receipts.map (·.result.operationId)).Nodup →
        (st'.receipts.map (·.result.operationId)).Nodup) := by
  induction rows generalizing count bytes st with
  | nil =>
    simp only [insertRows, run_ok] at ok
    obtain ⟨_, _, rfl⟩ := ok
    exact ⟨_, _, rfl, id⟩
  | cons row rest ih =>
    simp only [insertRows, run_ok] at ok
    obtain ⟨_, _, _, inserted, ok⟩ := ok
    obtain ⟨_, _, rfl, first⟩ := insertRow_ok inserted
    obtain ⟨_, _, rfl, second⟩ := ih ok
    exact ⟨_, _, rfl, second ∘ first⟩

end Replay

/-- The effect a transfer call may have: the journal tables are untouched, or they
represent some history and read admission is gone. -/
def Transferred (node node' : Node D) (h : History X.schema identity)
    (tail : Option (RefEntry D)) : Prop :=
  node'.role = node.role ∧
    ((node'.store = node.store ∧ node'.Sound h tail) ∨
      (node'.store.readiness = none ∧
        ∃ (h' : History X.schema identity) (tail' : Option (RefEntry D)),
          node'.Sound h' tail'))

namespace Sound

variable {node node' : Node D} {h : History X.schema identity}
  {tail : Option (RefEntry D)} {random : Bytes32}

theorem unchanged (sound : node.Sound h tail) : Transferred node node h tail :=
  ⟨rfl, .inl ⟨rfl, sound⟩⟩

/-- Progress of the transfer tables alone. -/
theorem restage (sound : node.Sound h tail) {snapshot : Option (SnapshotProgress D)}
    {materialized : Option (Materialized.Progress D)} {rows : List (ℕ × Materialized.Row D)}
    (snapshotClosed : ∀ p ∈ snapshot, p.complete = false → node.published = none)
    (materializedClosed : ∀ p ∈ materialized, p.complete = false → node.published = none) :
    Transferred node { node with snapshotTransfer := snapshot
                                 snapshotEntries := entries
                                 materializedTransfer := materialized
                                 materializedRows := rows } h tail :=
  ⟨rfl, .inl ⟨rfl, { sound with transfers := ⟨snapshotClosed, materializedClosed⟩ }⟩⟩

variable [DecidableEq D]

omit [DecidableEq D] in
theorem Empty.data (empty : node.Empty) : node.store.data = View.empty := by
  obtain ⟨_, places, features, _⟩ := empty
  cases shown : node.store.data
  simp [shown] at places features
  simp [places, features, View.empty]

theorem transferred (sound : node.Sound h tail) {c : Call D}
    (outcome : c.Outcome X node random node') (transfer : c.Transfers) :
    Transferred node node' h tail := by
  have initial (empty : node.Empty) :
      node.store.Represents (History.initial X.schema identity) none :=
    represents_empty empty.1 (Empty.data empty) empty.2.2.2.1 empty.2.2.2.2
  cases outcome with
  | kept => exact sound.unchanged
  | journal _ ordinary => exact absurd transfer ordinary
  | published _ ordinary => exact absurd transfer ordinary
  | applied => exact transfer.elim
  | confirmed _ names =>
    cases c with
    | confirmCheckpoint _ => exact transfer.elim
    | confirmGeneration _ _ => exact transfer.elim
    | _ => cases names
  | quarantined role =>
    refine ⟨rfl, .inr ⟨rfl, h, tail, sound.identity_eq, sound.supported, sound.unbound,
      sound.store.frame _ _ _, sound.publication, ?_, sound.transfers.snapshot,
      sound.transfers.materialized⟩⟩
    intro primary
    rw [show node.role = .primary from primary] at role
    cases role
  | installed snapshot role _ vacant empty replayed =>
    rw [sound.identity_eq] at replayed
    obtain ⟨h', rep⟩ := replayHistory_ok (initial empty) rfl replayed
    exact ⟨rfl, .inr ⟨rfl, h', none, sound.refill vacant role ⟨rfl, rfl, rfl, rfl, rfl⟩
      (rep.frame none _ _)⟩⟩
  | snapshotBegun manifest role _ _ vacant _ =>
    exact ⟨rfl, .inr ⟨rfl, h, tail, sound.refill vacant role ⟨rfl, rfl, rfl, rfl, rfl⟩
      (sound.store.frame _ _ _)⟩⟩
  | materializedBegun manifest role _ _ vacant _ =>
    exact ⟨rfl, .inr ⟨rfl, h, tail, sound.refill vacant role ⟨rfl, rfl, rfl, rfl, rfl⟩
      (sound.store.frame _ _ _)⟩⟩
  | snapshotStaged _ _ found unfinished =>
    have vacant := sound.transfers.snapshot _ found unfinished
    exact sound.restage (fun _ _ _ => vacant) sound.transfers.materialized
  | materializedStaged _ _ found unfinished =>
    have vacant := sound.transfers.materialized _ found unfinished
    exact sound.restage sound.transfers.snapshot (fun _ _ _ => vacant)
  | snapshotCancelled => exact sound.restage (by simp) sound.transfers.materialized
  | materializedCancelled => exact sound.restage sound.transfers.snapshot (by simp)
  | snapshotFilled _ role found unfinished empty replayed =>
    have vacant := sound.transfers.snapshot _ found unfinished
    rw [sound.identity_eq] at replayed
    obtain ⟨h', rep⟩ := replaySnapshot_ok (initial empty) rfl rfl replayed
    exact ⟨rfl, .inr ⟨rfl, h', none, sound.refill vacant role ⟨rfl, rfl, rfl, rfl, rfl⟩
      (rep.frame none _ _)⟩⟩
  | materializedFilled _ role found unfinished empty inserted current =>
    have vacant := sound.transfers.materialized _ found unfinished
    rw [sound.identity_eq] at current
    obtain ⟨_, _, rfl, distinct⟩ := insertRows_ok inserted
    obtain ⟨h', rep⟩ := Store.represents_base _ (by exact empty.1) rfl
      (by exact distinct (by simp [empty.2.2.2.1])) current
    exact ⟨rfl, .inr ⟨rfl, h', none, sound.refill vacant role ⟨rfl, rfl, rfl, rfl, rfl⟩
      (rep.frame none _ _)⟩⟩

end Sound

variable [DecidableEq D]

theorem Sound.call_ok {node' : Node D} {c : Call D} {reply : c.Reply} (sound : node.Sound h tail)
    (fresh : c.Fresh node) (ok : c.run X node random = .ok (reply, node')) :
    ∃ (h' : History X.schema identity) (tail' : Option (RefEntry D)),
      node'.Sound h' tail' := by
  have moved : Transferred node node' h tail →
      ∃ (h' : History X.schema identity) (tail' : Option (RefEntry D)),
        node'.Sound h' tail' := by
    intro effect
    rcases effect.2 with ⟨_, kept⟩ | ⟨_, h', tail', filled⟩
    · exact ⟨h, tail, kept⟩
    · exact ⟨h', tail', filled⟩
  cases c with
  | prepare batch =>
    obtain ⟨_, _, _, ⟨_, rfl⟩ | ⟨rfl, _, state, next, rfl⟩⟩ := sound.prepare_ok ok
    · exact ⟨h, tail, sound⟩
    · exact ⟨h, _, sound.append next (by rw [state]; simp)⟩
  | stage entry =>
    obtain ⟨_, ⟨_, _, _, _, rfl⟩ | ⟨rfl, _, unused, linked, _, _, rfl⟩⟩ := sound.stage_ok ok
    · exact ⟨h, tail, sound⟩
    · have absent : entry.batch.operationId ∉ h.operations := by
        intro mem
        have unknown := fresh unused
        rw [sound.store.receipt?_eq, List.find?_eq_none] at unknown
        obtain ⟨r, known, same⟩ := List.mem_map.mp mem
        exact unknown r known (decide_eq_true same)
      have next : h.Next entry := ⟨linked, absent⟩
      exact ⟨h, _, sound.append (next.withState .prepared) (by simp [Entry.withState])⟩
  | decide id =>
    obtain ⟨_, _, ⟨_, _, rfl⟩ | ⟨e, rfl, _, rfl, rfl⟩⟩ := sound.decide_ok ok
    · exact ⟨h, tail, sound⟩
    · exact ⟨h, _, sound.restate (by simp)⟩
  | apply decision =>
    obtain ⟨_, _, _, _, _, e, _, _, _, ⟨_, rfl⟩ | ⟨rfl, _, view, _, after, rfl⟩⟩ :=
      sound.apply_ok ok
    · exact ⟨h, tail, sound⟩
    · exact ⟨_, _, sound.finish after _⟩
  | abort id =>
    obtain ⟨_, rfl⟩ | ⟨e, rfl, _, _, rfl⟩ := sound.abort_ok ok
    · exact ⟨h, tail, sound⟩
    · exact ⟨h, _, sound.remove⟩
  | confirmCheckpoint expected =>
    obtain ⟨_, _, _, rfl⟩ := sound.confirmCheckpoint_ok ok
    exact ⟨h, tail, sound.confirm _⟩
  | confirmGeneration expected generation =>
    simp only [Call.run, confirmGeneration, ensure_bind_eq_ok] at ok
    obtain ⟨_, _, _, rfl⟩ := sound.confirmCheckpoint_ok ok.2
    exact ⟨h, tail, sound.confirm _⟩
  | captureBase proposal =>
    obtain ⟨_, _, ⟨_, rfl⟩ | ⟨vacant, _, idle, checkpoint, _, _, rfl⟩⟩ := sound.captureBase_ok ok
    · exact ⟨h, tail, sound⟩
    · exact ⟨h, tail, sound.capture vacant idle checkpoint⟩
  | confirmBase proposal =>
    obtain ⟨_, old, published, rfl, _, rfl⟩ := sound.confirmBase_ok ok
    exact ⟨h, tail, sound.setPhase published⟩
  | activatePublishedBase proposal =>
    obtain ⟨bound, published, ⟨_, rfl⟩ | ⟨_, _, rfl⟩⟩ := sound.activate_ok ok
    · exact ⟨h, tail, sound⟩
    · exact ⟨h, tail, sound.rebase published bound⟩
  | quarantine | install | snapshotBegin | snapshotChunk | snapshotFinish | snapshotCancel
  | materializedBegin | materializedChunk | materializedFinish | materializedCancel =>
    exact moved (sound.transferred (Call.run_outcome ok) trivial)
  | _ =>
    -- the remaining calls are reads
    obtain rfl := (reading_ok ok).2
    exact ⟨h, tail, sound⟩

theorem Sound.after {c : Call D} (sound : node.Sound h tail) (fresh : c.Fresh node) :
    ∃ (h' : History X.schema identity) (tail' : Option (RefEntry D)),
      (c.after X node random).Sound h' tail' := by
  unfold Call.after
  cases ran : c.run X node random with
  | error _ => exact ⟨h, tail, sound⟩
  | ok result => exact sound.call_ok fresh ran

theorem Sound.afterAll {calls : List (Call D × Bytes32)} (sound : node.Sound h tail)
    (fresh : node.FreshRun X calls) :
    ∃ (h' : History X.schema identity) (tail' : Option (RefEntry D)),
      (node.afterAll X calls).Sound h' tail' := by
  induction calls generalizing node h tail with
  | nil => exact ⟨h, tail, sound⟩
  | cons call rest ih =>
    obtain ⟨h', tail', next⟩ := sound.after fresh.1
    exact ih next fresh.2

end Node

end TerrapiVault.Replication
