import TerrapiVault.Replication.PublicationSteps

/-! One node under any sequence of calls, and what a successful call does to it, whatever the
node holds. A failed call leaves the node as it was. Versions of the journal tables are told
apart by the values that triggers and calls draw. -/
namespace TerrapiVault.Replication

variable {D : Type}

/-- The node interface, read and write, with its arguments. -/
inductive Call (D : Type) where
  | summary
  | journalHead
  | journalPage (expected : JournalHead ℕ D) (after limit : ℕ)
  | operation (id : String)
  | receipt (id : String)
  | completedResult (batch : Batch Change ℕ)
  | checkpoint
  | checkpointAt (sequence : ℕ)
  | requiredRecoveryPeer
  | peerIdentity
  | verifiedView
  | baseStatus
  | writeReady
  | prepare (batch : Batch Change ℕ)
  | stage (entry : RefEntry D)
  | decide (operationId : String)
  | apply (decision : RefEntry D)
  | abort (operationId : String)
  | confirmCheckpoint (expected : Checkpoint ℕ D)
  | confirmGeneration (expected : Checkpoint ℕ D) (generation : Bytes32)
  | quarantine
  | captureBase (proposal : Publication.Proposal D)
  | confirmBase (proposal : Publication.Proposal D)
  | activatePublishedBase (proposal : Publication.Proposal D)
  | install (snapshot : Snapshot D)
  | snapshotBegin (manifest : SnapshotManifest D)
  | snapshotChunk (token : Bytes32) (page : JournalPage Change ℕ D)
  | snapshotFinish (token : Bytes32)
  | snapshotCancel (token : Bytes32)
  | materializedBegin (manifest : Materialized.Manifest D)
  | materializedChunk (token : Bytes32) (page : Materialized.Page D)
  | materializedFinish (token : Bytes32)
  | materializedCancel (token : Bytes32)

namespace Call

abbrev Reply : Call D → Type
  | .summary => Summary D
  | .journalHead => JournalHead ℕ D
  | .journalPage .. => JournalPage Change ℕ D
  | .operation _ => Option (RefEntry D)
  | .receipt _ => Option (OperationReceipt D)
  | .completedResult _ => Option WriteResult
  | .checkpoint | .checkpointAt _ => Checkpoint ℕ D
  | .requiredRecoveryPeer | .peerIdentity => Option Bytes32
  | .verifiedView => Option View
  | .baseStatus => Option (Publication.Record D)
  | .prepare _ | .decide _ => RefEntry D
  | .captureBase _ | .confirmBase _ => Publication.Record D
  | .snapshotBegin _ | .snapshotChunk .. | .snapshotFinish _ => SnapshotProgress D
  | .materializedBegin _ | .materializedChunk .. | .materializedFinish _ =>
    Materialized.Progress D
  | .writeReady | .stage _ | .apply _ | .abort _ | .confirmCheckpoint _ | .confirmGeneration ..
  | .quarantine | .activatePublishedBase _ | .install _ | .snapshotCancel _
  | .materializedCancel _ => Unit

/-- A read returns the node unchanged. -/
def reading {α : Type} (node : Node D) (answer : Result α) : Result (α × Node D) := do
  let a ← answer
  pure (a, node)

theorem reading_of {α : Type} {node : Node D} {answer : Result α} {a : α}
    (answered : answer = .ok a) : reading node answer = .ok (a, node) := by
  rw [reading, answered]
  rfl

theorem reading_error {α : Type} {node : Node D} {answer : Result α} {e : Fault}
    (failed : answer = .error e) : reading node answer = .error e := by
  rw [reading, failed]
  rfl

variable [DecidableEq D] (X : Engine D)

def run (node : Node D) (random : Bytes32) : (c : Call D) → Result (c.Reply × Node D)
  | .summary => reading node (node.summary X)
  | .journalHead => reading node node.journalHead
  | .journalPage expected after limit => reading node (node.journalPage X expected after limit)
  | .operation id => reading node (node.operation X id)
  | .receipt id => reading node (node.receipt X id)
  | .completedResult batch => reading node (node.completedResult X batch)
  | .checkpoint => reading node (node.checkpoint X)
  | .checkpointAt sequence => reading node (node.checkpointAt X sequence)
  | .requiredRecoveryPeer => reading node node.requiredRecoveryPeer
  | .peerIdentity => reading node node.peerIdentity
  | .verifiedView => reading node (node.verifiedView X)
  | .baseStatus => reading node (node.baseStatus X)
  | .writeReady => reading node node.publicationIdle
  | .prepare batch => node.prepare X batch random
  | .stage entry => node.stage X entry random
  | .decide id => node.decide X id random
  | .apply decision => node.apply X decision random
  | .abort id => node.abort X id random
  | .confirmCheckpoint expected => node.confirmCheckpoint X expected
  | .confirmGeneration expected generation => node.confirmGeneration X expected generation
  | .quarantine => node.quarantine random
  | .captureBase proposal => node.captureBase X proposal
  | .confirmBase proposal => node.confirmBase X proposal
  | .activatePublishedBase proposal => node.activatePublishedBase X proposal random
  | .install snapshot => node.install X snapshot random
  | .snapshotBegin manifest => node.snapshotBegin X manifest random
  | .snapshotChunk token page => node.snapshotChunk X token page
  | .snapshotFinish token => node.snapshotFinish X token random
  | .snapshotCancel token => node.snapshotCancel token
  | .materializedBegin manifest => node.materializedBegin X manifest random
  | .materializedChunk token page => node.materializedChunk X token page
  | .materializedFinish token => node.materializedFinish X token
  | .materializedCancel token => node.materializedCancel token

/-- The node a call leaves behind. -/
def after (node : Node D) (random : Bytes32) (c : Call D) : Node D :=
  match c.run X node random with
  | .ok (_, node') => node'
  | .error _ => node

/-- The operation a `stage` would append has no receipt yet. A call that finds its
sequence in the journal appends nothing. -/
def Fresh (node : Node D) : Call D → Prop
  | .stage entry => (∀ row ∈ node.store.log, row.sequence ≠ entry.sequence) →
      node.store.receipt? entry.batch.operationId = none
  | _ => True

end Call

namespace Node

variable [DecidableEq D] (X : Engine D)

/-- Each call with the value it draws. -/
def afterAll (node : Node D) (calls : List (Call D × Bytes32)) : Node D :=
  calls.foldl (fun node call => call.1.after X node call.2) node

/-- Every `stage` along the run is fresh where it is made. -/
def FreshRun : Node D → List (Call D × Bytes32) → Prop
  | _, [] => True
  | node, call :: rest => call.1.Fresh node ∧ FreshRun (call.1.after X node call.2) rest

omit [DecidableEq D] in
theorem reading_ok {α : Type} {node node' : Node D} {answer : Result α} {a : α}
    (ok : Call.reading node answer = .ok (a, node')) : answer = .ok a ∧ node' = node := by
  simp only [Call.reading, run_ok] at ok
  obtain ⟨_, answered, rfl, rfl⟩ := ok
  exact ⟨answered, rfl⟩

end Node

variable {C V I : Type}

/-- A base where none was, or a later one. -/
def Rises (old new : Option (Checkpoint I D)) : Prop :=
  (old = none ∧ new ≠ none) ∨ baseFloor old < baseFloor new

theorem Rises.trans {a b c : Option (Checkpoint I D)} (first : Rises a b) (second : Rises b c) :
    Rises a c := by
  rcases second with ⟨rfl, _⟩ | later
  · rcases first with ⟨_, absent⟩ | low
    · exact absurd rfl absent
    · simp at low
  · rcases first with ⟨free, _⟩ | low
    · refine .inl ⟨free, ?_⟩
      rintro rfl
      simp at later
    · exact .inr (Nat.lt_trans low later)

theorem Rises.ne {a b : Option (Checkpoint I D)} (rises : Rises a b) : a ≠ b := by
  rintro rfl
  rcases rises with ⟨free, some⟩ | low
  · exact some free
  · exact Nat.lt_irrefl _ low

namespace Store

/-- The revision is renewed; or the log stays and the base rises; or at most the generation is
drawn. -/
inductive Drawn (random : Bytes32) (st st' : Store C V I D) : Prop
  | renewed (revision : st'.revision = random)
  | rises (revision : st'.revision = st.revision) (log : st'.log = st.log)
    (base : Rises st.base st'.base)
  | kept (revision : st'.revision = st.revision) (log : st'.log = st.log)
    (base : st'.base = st.base)
    (generation : st'.generation = st.generation ∨ st'.generation = random)

namespace Drawn

variable {random : Bytes32} {st st' st'' : Store C V I D}

theorem refl (random : Bytes32) (st : Store C V I D) : Drawn random st st :=
  .kept rfl rfl rfl (.inl rfl)

theorem beside (random : Bytes32) (st : Store C V I D) {data : V}
    {receipts : List (OperationReceipt D)} {readiness : Option (Checkpoint I D)} :
    Drawn random st { st with data := data, receipts := receipts, readiness := readiness } :=
  .kept rfl rfl rfl (.inl rfl)

theorem trans (first : Drawn random st st') (second : Drawn random st' st'') :
    Drawn random st st'' := by
  cases second with
  | renewed revision => exact .renewed revision
  | rises revision log base =>
    cases first with
    | renewed done => exact .renewed (revision.trans done)
    | rises revision' log' low => exact .rises (revision.trans revision') (log.trans log') (low.trans base)
    | kept revision' log' same => exact .rises (revision.trans revision') (log.trans log') (same ▸ base)
  | kept revision log base generation =>
    cases first with
    | renewed done => exact .renewed (revision.trans done)
    | rises revision' log' low => exact .rises (revision.trans revision') (log.trans log') (base ▸ low)
    | kept revision' log' same generation' =>
      refine .kept (revision.trans revision') (log.trans log') (base.trans same) ?_
      rcases generation with old | new
      · exact generation'.imp old.trans old.trans
      · exact .inr new

end Drawn

section

variable [DecidableEq I] [DecidableEq D] {S : Schema C V I D} {random : Bytes32}
  {st st' : Store C V I D} {e : Entry C I D}

/-- A row write touches the journal alone. -/
structure Written (random : Bytes32) (st st' : Store C V I D) : Prop where
  drawn : st.Drawn random st'
  data : st'.data = st.data
  readiness : st'.readiness = st.readiness

theorem write_written (ok : st.write S e random = .ok st') : st.Written random st' := by
  simp only [write, run_ok] at ok
  obtain ⟨_, _, _, rfl⟩ := ok
  exact ⟨.renewed rfl, rfl, rfl⟩

theorem insertReceipt_written (ok : st.insertReceipt S e = .ok st') : st.Written random st' := by
  simp only [insertReceipt, run_ok] at ok
  obtain ⟨_, _, found, _, ok⟩ := ok
  cases found with
  | some old =>
    simp only [ensure_bind_eq_ok, pure_inj] at ok
    exact ok.2 ▸ ⟨.refl random st, rfl, rfl⟩
  | none =>
    simp only [Checked.ensure_bind_eq_ok, pure_inj] at ok
    exact ok.2 ▸ ⟨.beside random st, rfl, rfl⟩

omit [DecidableEq I] [DecidableEq D] in
theorem Written.trans {st'' : Store C V I D} (first : st.Written random st')
    (second : st'.Written random st'') : st.Written random st'' :=
  ⟨first.drawn.trans second.drawn, second.data.trans first.data,
    second.readiness.trans first.readiness⟩

theorem save_written (ok : st.save S e random = .ok st') : st.Written random st' := by
  simp only [save, run_ok] at ok
  obtain ⟨written, wrote, ok⟩ := ok
  split at ok
  · exact (write_written wrote).trans (insertReceipt_written ok)
  · obtain rfl := Except.ok.inj ok
    exact write_written wrote

end

end Store

variable [DecidableEq D] {X : Engine D}

/-- Nothing is live: a transfer may fill the node. -/
def Node.Empty (node : Node D) : Prop :=
  node.store.log = [] ∧ node.store.data.places = [] ∧ node.store.data.features = [] ∧
    node.store.receipts = [] ∧ node.store.base = none

omit [DecidableEq D] in
/-- Both transfers ask for the same. -/
theorem Node.empty_eq_ok {node : Node D} : (∀ u, node.ensureEmpty = .ok u ↔ node.Empty) ∧
    ∀ u, node.materializedEmpty = .ok u ↔ node.Empty := by
  simp [ensureEmpty, materializedEmpty, Node.Empty]

namespace Call

/-- The checkpoint a call confirms. -/
def confirmed : Call D → Option (Checkpoint ℕ D)
  | .confirmCheckpoint cp | .confirmGeneration cp _ => some cp
  | _ => none

/-- The calls that are refused while a transfer is open. -/
def Gated : Call D → Prop
  | .stage _ | .apply _ | .abort _ | .confirmCheckpoint _ | .confirmGeneration ..
  | .captureBase _ | .confirmBase _ | .activatePublishedBase _ => True
  | _ => False

/-- The calls that fill a node or clear its read admission. -/
def Transfers : Call D → Prop
  | .quarantine | .install _ | .snapshotBegin _ | .snapshotChunk .. | .snapshotFinish _
  | .snapshotCancel _ | .materializedBegin _ | .materializedChunk .. | .materializedFinish _
  | .materializedCancel _ => True
  | _ => False

/-- The node a successful call leaves, with the guards it passed. -/
inductive Outcome (X : Engine D) (node : Node D) (random : Bytes32) : Call D → Node D → Prop
  | kept (c : Call D) (gate : c.Gated → node.Idle ∨ node.published ≠ none) :
      Outcome X node random c node
  | journal (c : Call D) {st : RefStore D} (ordinary : ¬c.Transfers)
      (gate : node.role = .primary ∧ ¬c.Gated ∨ node.Idle) (drawn : node.store.Drawn random st)
      (readiness : st.readiness = node.store.readiness) :
      Outcome X node random c { node with store := st }
  | applied (decision : RefEntry D) {e : RefEntry D} {verified : Bool} {data : View}
      {saved st : RefStore D} (idle : node.Idle)
      (found : node.store.bySequence X.schema decision.sequence = .ok (some e))
      (named : e.digest = decision.digest)
      (before : X.schema.viewDigest node.store.data = e.before)
      (read : node.readVerified X = .ok verified)
      (replayed : X.schema.replay node.store.data e.changeset = .ok data)
      (written : Store.Written random { node.store with data := data } saved)
      (kept : Node.keepVerified X verified node.identity saved = .ok st) :
      Outcome X node random (.apply decision) { node with store := st }
  | confirmed (c : Call D) {cp : Checkpoint ℕ D} (names : c.confirmed = some cp)
      (idle : node.Idle) :
      Outcome X node random c { node with store := { node.store with readiness := some cp } }
  | quarantined (role : node.role = .secondary) :
      Outcome X node random .quarantine
        { node with store := { node.store with readiness := none, generation := random } }
  | published (c : Call D) {r : Option (Publication.Record D)} {view : View}
      {receipts : List (OperationReceipt D)} (ordinary : ¬c.Transfers)
      (gate : node.Idle ∨ node.published ≠ none) :
      Outcome X node random c
        { node with published := r, publishedView := view, publishedReceipts := receipts }
  | installed (snapshot : Snapshot D) {st : RefStore D} (role : node.role = .secondary)
      (idle : node.Idle) (vacant : node.published = none) (empty : node.Empty)
      (replayed : Node.replayHistory X node.identity random 0 snapshot.entries node.store =
        .ok st) :
      Outcome X node random (.install snapshot) { node with store := { st with readiness := none } }
  | snapshotBegun (manifest : SnapshotManifest D) (role : node.role = .secondary)
      (idle : ∀ p ∈ node.materializedTransfer, p.complete = true)
      (unused : node.snapshotTransfer = none) (vacant : node.published = none)
      (empty : node.Empty) :
      Outcome X node random (.snapshotBegin manifest)
        { node with snapshotTransfer := some ⟨manifest, random, 0, 0, false⟩
                    store := { node.store with readiness := none, generation := random } }
  | snapshotStaged (token : Bytes32) (page : JournalPage Change ℕ D) {p : SnapshotProgress D}
      {bytes : ℕ} {staged : List (RefEntry D)} (found : node.snapshotTransfer = some p)
      (unfinished : p.complete = false) (next : page.after = p.received)
      (valid : JournalPage.validateEntries X.schema p.manifest.head.identity page.after 0
        page.entries = .ok ())
      (filled : Node.stageSnapshotEntries X page.entries p.bytes node.snapshotEntries =
        .ok (bytes, staged)) :
      Outcome X node random (.snapshotChunk token page)
        { node with snapshotTransfer :=
                      some { p with bytes := bytes, received := page.after + page.entries.length }
                    snapshotEntries := staged }
  | snapshotFilled (token : Bytes32) {p : SnapshotProgress D} {st : RefStore D}
      {count bytes : ℕ} {view : View} (role : node.role = .secondary)
      (found : node.snapshotTransfer = some p) (unfinished : p.complete = false)
      (empty : node.Empty)
      (replayed : Node.replaySnapshot X node.identity random 0 0 (X.schema.viewDigest View.empty)
        node.snapshotEntries node.store = .ok (count, bytes, st))
      (current : st.current X.schema node.identity true = .ok (p.manifest.checkpoint, view)) :
      Outcome X node random (.snapshotFinish token)
        { node with store := { st with readiness := none }
                    snapshotEntries := []
                    snapshotTransfer := some { p with complete := true } }
  | snapshotCancelled (token : Bytes32) {p : SnapshotProgress D}
      (found : node.snapshotTransfer = some p) (mine : p.token = token) :
      Outcome X node random (.snapshotCancel token)
        { node with snapshotEntries := [], snapshotTransfer := none }
  | materializedBegun (manifest : Materialized.Manifest D) (role : node.role = .secondary)
      (idle : node.Idle) (unused : node.materializedTransfer = none)
      (vacant : node.published = none) (empty : node.Empty) :
      Outcome X node random (.materializedBegin manifest)
        { node with materializedTransfer := some ⟨manifest, random, 0, 0, false⟩
                    store := { node.store with readiness := none, generation := random } }
  | materializedStaged (token : Bytes32) (page : Materialized.Page D) {p : Materialized.Progress D}
      {bytes : ℕ} {staged : List (ℕ × Materialized.Row D)}
      (found : node.materializedTransfer = some p) (unfinished : p.complete = false)
      (next : page.after = p.received ∨ page.after + page.rows.length ≤ p.received)
      (filled : Node.stageMaterializedRows X (page.after + page.rows.length ≤ p.received)
        page.after page.rows p.bytes node.materializedRows = .ok (bytes, staged)) :
      Outcome X node random (.materializedChunk token page)
        { node with materializedTransfer := some { p with
                      bytes := bytes
                      received := max p.received (page.after + page.rows.length) }
                    materializedRows := staged }
  | materializedFilled (token : Bytes32) {p : Materialized.Progress D}
      {st : RefStore D} {count bytes : ℕ} {view : View}
      (role : node.role = .secondary) (found : node.materializedTransfer = some p)
      (unfinished : p.complete = false) (empty : node.Empty)
      (inserted : Node.insertRows X p.manifest 0 0 node.materializedRows node.store =
        .ok (count, bytes, st))
      (current : { st with base := some p.manifest.checkpoint }.current X.schema node.identity
        true = .ok (p.manifest.checkpoint, view)) :
      Outcome X node random (.materializedFinish token)
        { node with store := { st with base := some p.manifest.checkpoint, readiness := none }
                    materializedRows := []
                    materializedTransfer := some { p with complete := true } }
  | materializedCancelled (token : Bytes32) {p : Materialized.Progress D}
      (found : node.materializedTransfer = some p) (mine : p.token = token) :
      Outcome X node random (.materializedCancel token)
        { node with materializedRows := [], materializedTransfer := none }

end Call

/-! One lemma per call that writes. -/

variable {reply : Materialized.Progress D} {proposal : Publication.Proposal D}

namespace Node

open Call (Outcome)

variable {node node' : Node D} {random token : Bytes32}

omit [DecidableEq D] in
theorem loadToken_ok {p : SnapshotProgress D} (ok : node.loadToken token = .ok p) :
    node.snapshotTransfer = some p := by
  unfold loadToken at ok
  cases found : node.snapshotTransfer with
  | none => simp [found] at ok
  | some p' =>
    simp only [found, ensure_bind_eq_ok, pure_inj] at ok
    rw [ok.2]

omit [DecidableEq D] in
theorem loadMaterialized_ok {p : Materialized.Progress D}
    (ok : node.loadMaterialized token = .ok p) : node.materializedTransfer = some p := by
  unfold loadMaterialized at ok
  cases found : node.materializedTransfer with
  | none => simp [found] at ok
  | some p' =>
    simp only [found, ensure_bind_eq_ok, pure_inj] at ok
    rw [ok.2]

theorem validatePublication_published {r : Option (Publication.Record D)}
    (ok : node.validatePublication X = .ok r) : node.published = r := by
  rw [validatePublication] at ok
  cases found : node.published with
  | none =>
    simp only [found, ensure_bind_eq_ok, pure_inj] at ok
    exact ok.2
  | some old =>
    simp only [found, ensure_bind_eq_ok] at ok
    obtain ⟨_, ok⟩ := ok
    split_ifs at ok <;>
      simp only [run_ok] at ok
    · obtain ⟨_, _, _, _, _, _, _, _, same⟩ := ok
      exact same
    · obtain ⟨_, _, _, _, _, _, same⟩ := ok
      exact same

theorem prepare_eq_ok {batch : Batch Change ℕ} {e : RefEntry D}
    (ok : node.prepare X batch random = .ok (e, node')) :
    node.role = .primary ∧
      (node.store.byOperation X.schema batch.operationId ≠ .ok none ∧ node' = node ∨
        checkEntrySize X.schema e = .ok () ∧ ∃ st, node.store.save X.schema e random = .ok st ∧
          node' = { node with store := st }) := by
  simp only [prepare, unit_bind_eq_ok, ensure_eq_ok] at ok
  obtain ⟨primary, _, _, ok⟩ := ok
  obtain ⟨found, lookup, ok⟩ := bind_eq_ok.mp ok
  refine ⟨primary, ?_⟩
  cases found with
  | some old =>
    simp only [run_ok] at ok
    obtain ⟨_, _, _, _, rfl⟩ := ok
    exact .inl ⟨by simp [lookup], rfl⟩
  | none =>
    simp only [checked_ok, Prod.exists] at ok
    obtain ⟨known, _, _, head, _, _, _, _, next, changeset, _, fits, st, saved, rfl, rfl⟩ := ok
    exact .inr ⟨fits, st, saved, rfl⟩

theorem prepare_outcome {batch : Batch Change ℕ} {reply : RefEntry D}
    (ok : node.prepare X batch random = .ok (reply, node')) :
    Outcome X node random (.prepare batch) node' := by
  obtain ⟨primary, ⟨_, rfl⟩ | ⟨_, st, saved, rfl⟩⟩ := prepare_eq_ok ok
  · exact .kept _ False.elim
  · exact .journal _ id (.inl ⟨primary, id⟩) (Store.save_written saved).drawn
      (Store.save_written saved).readiness

theorem stage_eq_ok {entry : RefEntry D} {u : Unit}
    (ok : node.stage X entry random = .ok (u, node')) :
    checkEntrySize X.schema entry = .ok () ∧ node.transferIdle = .ok () ∧
      (node' = node ∨ ∃ st, node.store.save X.schema (entry.withState .prepared) random = .ok st ∧
        node' = { node with store := st }) := by
  simp only [stage, unit_bind_eq_ok] at ok
  obtain ⟨_, _, fits, _, idle, ok⟩ := ok
  refine ⟨fits, idle, ?_⟩
  obtain ⟨found, _, ok⟩ := bind_eq_ok.mp ok
  cases found with
  | some old =>
    simp only [ensure_bind_eq_ok, pure_inj, Prod.mk.injEq] at ok
    exact .inl ok.2.2.symm
  | none =>
    simp only [checked_ok] at ok
    obtain ⟨_, head, _, _, _, data, _, st, saved, _, rfl⟩ := ok
    exact .inr ⟨st, saved, rfl⟩

theorem stage_outcome {entry : RefEntry D} {reply : Unit}
    (ok : node.stage X entry random = .ok (reply, node')) :
    Outcome X node random (.stage entry) node' := by
  obtain ⟨_, idle, rfl | ⟨st, saved, rfl⟩⟩ := stage_eq_ok ok
  · exact .kept _ fun _ => .inl (transferIdle_eq_ok.mp idle)
  · exact .journal _ id (.inr (transferIdle_eq_ok.mp idle)) (Store.save_written saved).drawn
      (Store.save_written saved).readiness

theorem decide_outcome {id : String} {reply : RefEntry D}
    (ok : node.decide X id random = .ok (reply, node')) :
    Outcome X node random (.decide id) node' := by
  simp only [decide, checked_ok] at ok
  obtain ⟨primary, _, found, _, ok⟩ := ok
  cases found with
  | none => cases ok
  | some e =>
    dsimp only at ok
    split at ok
    · simp only [run_ok] at ok
      obtain ⟨st, saved, _, rfl⟩ := ok
      exact .journal _ False.elim (.inl ⟨primary, False.elim⟩) (Store.save_written saved).drawn
        (Store.save_written saved).readiness
    · simp only [run_ok] at ok
      exact ok.2 ▸ .kept _ False.elim

theorem apply_outcome {decision : RefEntry D} {reply : Unit}
    (ok : node.apply X decision random = .ok (reply, node')) :
    Outcome X node random (.apply decision) node' := by
  simp only [apply, run_ok, transferIdle_eq_ok] at ok
  obtain ⟨_, _, _, idle, row, found, ok⟩ := ok
  cases row with
  | none => cases ok
  | some e =>
    simp only [ensure_bind_eq_ok] at ok
    obtain ⟨named, ok⟩ := ok
    split at ok
    · simp only [run_ok] at ok
      obtain ⟨_, _, _, rfl⟩ := ok
      exact .kept _ fun _ => .inl idle
    · simp only [checked_ok, Schema.replayData_eq_ok] at ok
      obtain ⟨_, before, verified, read, data, ⟨_, replayed, _⟩, saved, save, st, kept, _, rfl⟩ :=
        ok
      exact .applied decision idle found named before read replayed (Store.save_written save) kept

theorem abort_outcome {id : String} {reply : Unit}
    (ok : node.abort X id random = .ok (reply, node')) :
    Outcome X node random (.abort id) node' := by
  simp only [abort, run_ok, transferIdle_eq_ok] at ok
  obtain ⟨_, idle, found, _, ok⟩ := ok
  cases found with
  | none =>
    simp only [run_ok] at ok
    exact ok.2 ▸ .kept _ fun _ => .inl idle
  | some e =>
    simp only [run_ok] at ok
    obtain ⟨_, _, _, _, rfl⟩ := ok
    exact .journal _ False.elim (.inr idle) (.renewed rfl) rfl

theorem confirm_outcome {expected : Checkpoint ℕ D} {reply : Unit} {c : Call D}
    (names : c.confirmed = some expected) (ok : node.confirmCheckpoint X expected = .ok (reply, node')) :
    Outcome X node random c node' := by
  simp only [confirmCheckpoint, run_ok, transferIdle_eq_ok] at ok
  obtain ⟨_, idle, _, _, _, _, rfl⟩ := ok
  exact .confirmed c names idle

theorem captureBase_outcome {reply : Publication.Record D}
    (ok : node.captureBase X proposal = .ok (reply, node')) :
    Outcome X node random (.captureBase proposal) node' := by
  simp only [captureBase, run_ok] at ok
  obtain ⟨_, _, found, read, ok⟩ := ok
  have known := validatePublication_published read
  cases found with
  | some r =>
    simp only [ensure_bind_eq_ok, pure_inj, Prod.mk.injEq] at ok
    obtain ⟨_, _, rfl⟩ := ok
    exact .kept _ fun _ => .inr (by simp [known])
  | none =>
    simp only [run_ok, transferIdle_eq_ok] at ok
    obtain ⟨idle, _, _, _, _, _, _, _, rfl⟩ := ok
    exact .published _ id (.inl idle)

theorem confirmBase_outcome {reply : Publication.Record D}
    (ok : node.confirmBase X proposal = .ok (reply, node')) :
    Outcome X node random (.confirmBase proposal) node' := by
  simp only [confirmBase, run_ok] at ok
  obtain ⟨_, found, read, ok⟩ := ok
  have known := validatePublication_published read
  cases found with
  | none => cases ok
  | some r =>
    simp only [ensure_bind_eq_ok, pure_inj, Prod.mk.injEq] at ok
    obtain ⟨_, _, rfl⟩ := ok
    exact .published _ id (.inr (by simp [known]))

theorem activatePublishedBase_outcome {reply : Unit}
    (ok : node.activatePublishedBase X proposal random = .ok (reply, node')) :
    Outcome X node random (.activatePublishedBase proposal) node' := by
  simp only [activatePublishedBase, run_ok] at ok
  obtain ⟨_, _, _, _, _, found, read, ok⟩ := ok
  have known := validatePublication_published read
  cases found with
  | none => cases ok
  | some r =>
    simp only [ensure_bind_eq_ok] at ok
    obtain ⟨_, ok⟩ := ok
    split at ok
    · simp only [run_ok] at ok
      exact ok.2 ▸ .kept _ fun _ => .inr (by simp [known])
    · simp only [run_ok, transferIdle_eq_ok] at ok
      obtain ⟨_, idle, _, _, _, _, _, _, rfl⟩ := ok
      exact .journal _ id (.inr idle) (.renewed rfl) rfl

theorem install_outcome {snapshot : Snapshot D} {reply : Unit}
    (ok : node.install X snapshot random = .ok (reply, node')) :
    Outcome X node random (.install snapshot) node' := by
  simp only [install, publicationAbsent, checked_ok, transferIdle_eq_ok] at ok
  obtain ⟨⟨role, _⟩, _, _, idle, vacant, entries, all, ⟨none, data, receipts, base⟩, st, replayed,
    _, _, _, _, _, rfl⟩ := ok
  have log : node.store.log = [] := by
    cases shown : node.store.log with
    | nil => rfl
    | cons e rest =>
      simp only [Store.all, shown, List.mapM_cons, run_ok, none] at all
      obtain ⟨_, _, _, _, same⟩ := all
      cases same
  refine .installed snapshot role idle vacant
    ⟨log, ?_, ?_, List.eq_nil_of_length_eq_zero receipts, base⟩ replayed
  · rw [data]
    rfl
  · rw [data]
    rfl

theorem snapshotBegin_outcome {manifest : SnapshotManifest D} {reply : SnapshotProgress D}
    (ok : node.snapshotBegin X manifest random = .ok (reply, node')) :
    Outcome X node random (.snapshotBegin manifest) node' ∧ node'.snapshotTransfer = some reply := by
  simp only [snapshotBegin, materializedIdle, run_ok, ensure_eq_ok] at ok
  obtain ⟨⟨role, _⟩, _, _, idle, ok⟩ := ok
  cases found : node.snapshotTransfer with
  | some p =>
    simp only [found, run_ok] at ok
    obtain ⟨_, _, _, ok⟩ := ok
    split_ifs at ok <;>
      simp only [run_ok] at ok
    · obtain ⟨_, _, _, rfl, rfl⟩ := ok
      exact ⟨.kept _ False.elim, found⟩
    · obtain ⟨rfl, rfl⟩ := ok
      exact ⟨.kept _ False.elim, found⟩
  | none =>
    simp only [found, publicationAbsent, empty_eq_ok, checked_ok] at ok
    obtain ⟨vacant, empty, rfl, rfl⟩ := ok
    exact ⟨.snapshotBegun manifest role idle found vacant empty, rfl⟩

theorem materializedBegin_outcome {manifest : Materialized.Manifest D}
    (ok : node.materializedBegin X manifest random = .ok (reply, node')) :
    Outcome X node random (.materializedBegin manifest) node' ∧
      node'.materializedTransfer = some reply := by
  simp only [materializedBegin, checked_ok] at ok
  obtain ⟨⟨role, _⟩, _, _, ok⟩ := ok
  cases found : node.materializedTransfer with
  | some p =>
    simp only [found, run_ok] at ok
    obtain ⟨_, _, _, ok⟩ := ok
    split_ifs at ok <;>
      simp only [run_ok] at ok
    · obtain ⟨_, _, _, rfl, rfl⟩ := ok
      exact ⟨.kept _ False.elim, found⟩
    · obtain ⟨rfl, rfl⟩ := ok
      exact ⟨.kept _ False.elim, found⟩
  | none =>
    simp only [found, publicationAbsent, empty_eq_ok, checked_ok, transferIdle_eq_ok] at ok
    obtain ⟨idle, vacant, empty, rfl, rfl⟩ := ok
    exact ⟨.materializedBegun manifest role idle found vacant empty, rfl⟩

theorem snapshotChunk_outcome {page : JournalPage Change ℕ D} {reply : SnapshotProgress D}
    (ok : node.snapshotChunk X token page = .ok (reply, node')) :
    Outcome X node random (.snapshotChunk token page) node' := by
  simp only [snapshotChunk, checked_ok] at ok
  obtain ⟨_, p, loaded, unfinished, valid, some, range, _, ok⟩ := ok
  simp only [JournalPage.validate, run_ok] at valid
  obtain ⟨_, _, _, _, valid⟩ := valid
  split_ifs at ok with again
  · simp only [run_ok] at ok
    obtain ⟨_, _, rfl⟩ := ok
    exact .kept _ False.elim
  · simp only [run_ok] at ok
    obtain ⟨⟨bytes, staged⟩, filled, _, rfl⟩ := ok
    exact .snapshotStaged token page (loadToken_ok loaded) unfinished
      (range.resolve_right again) valid filled

theorem materializedChunk_outcome {page : Materialized.Page D}
    (ok : node.materializedChunk X token page = .ok (reply, node')) :
    Outcome X node random (.materializedChunk token page) node' := by
  simp only [materializedChunk, checked_ok] at ok
  obtain ⟨_, _, _, p, loaded, ⟨unfinished, _⟩, range, ⟨bytes, staged⟩, filled, _, rfl⟩ := ok
  exact .materializedStaged token page (loadMaterialized_ok loaded) unfinished range filled

theorem snapshotFinish_outcome {reply : SnapshotProgress D}
    (ok : node.snapshotFinish X token random = .ok (reply, node')) :
    Outcome X node random (.snapshotFinish token) node' := by
  simp only [snapshotFinish, checked_ok] at ok
  obtain ⟨role, p, loaded, ok⟩ := ok
  split_ifs at ok with complete
  · simp only [run_ok] at ok
    obtain ⟨_, _, _, _, rfl⟩ := ok
    exact .kept _ False.elim
  · simp only [empty_eq_ok, checked_ok, Prod.exists] at ok
    obtain ⟨_, empty, count, bytes, st, replayed, _, current, view, computed, same, _, rfl⟩ := ok
    exact .snapshotFilled token role (loadToken_ok loaded) (by simpa using complete) empty replayed
      (same ▸ computed)

theorem materializedFinish_outcome (ok : node.materializedFinish X token = .ok (reply, node')) :
    Outcome X node random (.materializedFinish token) node' := by
  simp only [materializedFinish, checked_ok] at ok
  obtain ⟨role, p, loaded, ok⟩ := ok
  split_ifs at ok with complete
  · simp only [run_ok] at ok
    obtain ⟨_, _, _, _, rfl⟩ := ok
    exact .kept _ False.elim
  · simp only [empty_eq_ok, checked_ok, Prod.exists] at ok
    obtain ⟨_, _, _, empty, count, bytes, st, inserted, _, current, view, computed, same, _, rfl⟩ := ok
    exact .materializedFilled token role (loadMaterialized_ok loaded) (by simpa using complete) empty
      inserted (same ▸ computed)

omit [DecidableEq D] in
theorem snapshotCancel_ok {reply : Unit} (ok : node.snapshotCancel token = .ok (reply, node')) :
    ∃ p, node.snapshotTransfer = some p ∧ p.token = token ∧
      node' = { node with snapshotEntries := [], snapshotTransfer := none } := by
  simp only [snapshotCancel, run_ok] at ok
  obtain ⟨_, ok⟩ := ok
  cases found : node.snapshotTransfer with
  | none => simp [found] at ok
  | some p =>
    simp only [found, ensure_bind_eq_ok, pure_inj, Prod.mk.injEq] at ok
    exact ⟨p, rfl, ok.1, ok.2.2.symm⟩

omit [DecidableEq D] in
theorem materializedCancel_ok {reply : Unit}
    (ok : node.materializedCancel token = .ok (reply, node')) :
    ∃ p, node.materializedTransfer = some p ∧ p.token = token ∧
      node' = { node with materializedRows := [], materializedTransfer := none } := by
  simp only [materializedCancel, run_ok] at ok
  obtain ⟨_, ok⟩ := ok
  cases found : node.materializedTransfer with
  | none => simp [found] at ok
  | some p =>
    simp only [found, ensure_bind_eq_ok, pure_inj, Prod.mk.injEq] at ok
    exact ⟨p, rfl, ok.1, ok.2.2.symm⟩

end Node

/-- Every successful call has its effect. -/
theorem Call.run_outcome {node node' : Node D} {random : Bytes32} {c : Call D} {reply : c.Reply}
    (ok : c.run X node random = .ok (reply, node')) : Outcome X node random c node' := by
  cases c with
  | prepare batch => exact Node.prepare_outcome ok
  | stage entry => exact Node.stage_outcome ok
  | decide id => exact Node.decide_outcome ok
  | apply decision => exact Node.apply_outcome ok
  | abort id => exact Node.abort_outcome ok
  | confirmCheckpoint expected => exact Node.confirm_outcome rfl ok
  | confirmGeneration expected generation =>
    simp only [run, Node.confirmGeneration, ensure_bind_eq_ok] at ok
    exact Node.confirm_outcome rfl ok.2
  | quarantine =>
    simp only [run, Node.quarantine, ensure_bind_eq_ok, pure_inj,
      Prod.mk.injEq] at ok
    exact ok.2.2 ▸ .quarantined ok.1
  | captureBase proposal => exact Node.captureBase_outcome ok
  | confirmBase proposal => exact Node.confirmBase_outcome ok
  | activatePublishedBase proposal => exact Node.activatePublishedBase_outcome ok
  | install snapshot => exact Node.install_outcome ok
  | snapshotBegin manifest => exact (Node.snapshotBegin_outcome ok).1
  | snapshotChunk token page => exact Node.snapshotChunk_outcome ok
  | snapshotFinish token => exact Node.snapshotFinish_outcome ok
  | snapshotCancel token =>
    obtain ⟨p, found, mine, rfl⟩ := Node.snapshotCancel_ok ok
    exact .snapshotCancelled token found mine
  | materializedBegin manifest => exact (Node.materializedBegin_outcome ok).1
  | materializedChunk token page => exact Node.materializedChunk_outcome ok
  | materializedFinish token => exact Node.materializedFinish_outcome ok
  | materializedCancel token =>
    obtain ⟨p, found, mine, rfl⟩ := Node.materializedCancel_ok ok
    exact .materializedCancelled token found mine
  | _ =>
    obtain rfl := (Node.reading_ok ok).2
    exact .kept _ False.elim

/-- A call that fails changes nothing, so what every effect preserves holds after any call. -/
theorem Call.after_of_outcome {P : Node D → Prop} {node : Node D} {random : Bytes32} {c : Call D}
    (holds : P node) (step : ∀ node', Outcome X node random c node' → P node') :
    P (c.after X node random) := by
  unfold Call.after
  cases ran : c.run X node random with
  | error _ => exact holds
  | ok result => exact step _ (run_outcome ran)

end TerrapiVault.Replication
