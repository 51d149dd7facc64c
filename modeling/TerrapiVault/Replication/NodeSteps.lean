import TerrapiVault.Replication.StoreSteps
import TerrapiVault.Replication.Transfers

/-! The representation invariant of a reference node, what its reads return under it, and the
successful calls of the write path read backwards. The journal tables represent a history; the
published artifact is a copy of one of its prefixes; a primary's base is its confirmed
publication. -/
namespace TerrapiVault.Replication

variable {D : Type} {X : Engine D} {identity : Identity ℕ}

namespace Node

/-- The artifact tables hold the prefix named by the published checkpoint. -/
def PublicationOf (h : History X.schema identity) (node : Node D) : Prop :=
  match node.published with
  | none => node.publishedView.places = [] ∧ node.publishedView.features = [] ∧
      node.publishedReceipts = []
  | some r =>
    baseFloor node.store.base ≤ r.proposal.checkpoint.sequence ∧
    r.proposal.checkpoint.sequence ≤ h.length ∧
    r.proposal.checkpoint = (h.upTo r.proposal.checkpoint.sequence).checkpoint ∧
    X.schema.viewDigest node.publishedView = r.proposal.checkpoint.viewDigest ∧
    node.publishedReceipts = (h.upTo r.proposal.checkpoint.sequence).receipts

/-- A primary's base is its own confirmed publication, of its current generation. -/
def PrimaryBase (node : Node D) : Prop :=
  node.role = .primary → ∀ b ∈ node.store.base, ∃ r, node.published = some r ∧
    r.phase = .confirmed ∧ r.proposal.checkpoint = b ∧
    r.proposal.primaryGeneration = node.store.generation

/-- No publication exists while a transfer is open. -/
structure TransfersClosed (node : Node D) : Prop where
  snapshot : ∀ p ∈ node.snapshotTransfer, p.complete = false → node.published = none
  materialized : ∀ p ∈ node.materializedTransfer, p.complete = false → node.published = none

structure Sound (node : Node D) (h : History X.schema identity)
    (tail : Option (RefEntry D)) : Prop where
  identity_eq : node.identity = identity
  supported : identity.schema = 1 ∧ 0 < identity.epoch
  unbound : node.recovery = .unbound
  store : node.store.Represents h tail
  publication : node.PublicationOf h
  primaryBase : node.PrimaryBase
  transfers : node.TransfersClosed

theorem create_sound (X : Engine D) (role : Role) {identity : Identity ℕ}
    (supported : identity.schema = 1 ∧ 0 < identity.epoch) (generation revision : Bytes32) :
    (create role identity generation revision : Node D).Sound
      (History.initial X.schema identity) none where
  identity_eq := rfl
  supported := supported
  unbound := rfl
  store :=
    { log_eq := rfl
      receipts_eq := rfl
      pending := by simp
      next := by simp
      base := rfl
      data := rfl }
  publication := ⟨rfl, rfl, rfl⟩
  primaryBase := by
    intro _ b stored
    simp [create] at stored
  transfers := ⟨by simp [create], by simp [create]⟩

namespace Sound

variable {node : Node D} {h : History X.schema identity} {tail : Option (RefEntry D)}
  (sound : node.Sound h tail)

include sound

theorem admission_eq : node.admission = .ok () := by
  rw [admission, sound.unbound]
  rfl

theorem pairDigest_eq : node.pairDigest = .ok none := by
  rw [pairDigest, sound.admission_eq]
  rfl

theorem requiredRecoveryPeer_eq : node.requiredRecoveryPeer = .ok none := by
  rw [requiredRecoveryPeer, sound.unbound]
  rfl

theorem journalHead_eq : node.journalHead = .ok ⟨node.store.base, identity,
    node.store.revision, node.store.generation, h.length + tail.toList.length⟩ := by
  rw [journalHead, sound.identity_eq]
  exact sound.store.head_eq

theorem summary_eq {head : JournalHead ℕ D} (found : node.journalHead = .ok head) :
    node.summary X =
      .ok ⟨schemaContract X, none, head, node.role, X.cipherVersion, 2, "wal"⟩ := by
  rw [summary, sound.pairDigest_eq, ok_bind, found]
  rfl

variable [DecidableEq D]

theorem checkpoint_eq (resolved : tail = none) : node.checkpoint X = .ok h.checkpoint := by
  rw [checkpoint, sound.identity_eq, sound.store.current_resolved resolved]
  rfl

theorem checkpointAt_eq {n : ℕ} (above : baseFloor node.store.base ≤ n)
    (within : n ≤ h.length) : node.checkpointAt X n = .ok (h.upTo n).checkpoint := by
  rw [checkpointAt, sound.identity_eq]
  exact sound.store.calculate_at true above within

theorem receipt_eq (id : String) : node.receipt X id = .ok (node.store.receipt? id) := by
  rw [receipt, sound.identity_eq]
  exact sound.store.receipt_eq id

theorem validatePublication_eq : node.validatePublication X = .ok node.published := by
  have publication := sound.publication
  unfold PublicationOf at publication
  unfold validatePublication
  cases found : node.published with
  | none =>
    rw [found] at publication
    obtain ⟨places, features, receipts⟩ := publication
    simp [places, features, receipts]
  | some r =>
    rw [found] at publication
    obtain ⟨above, within, same, view, receipts⟩ := publication
    have low := sound.store.base.origin_le
    have length := h.upTo_length (Nat.le_trans low above) within
    have bound := h.length_lt
    have metadata : r.proposal.checkpoint.identity = node.identity ∧
        r.proposal.checkpoint.format = 1 ∧
        r.proposal.checkpoint.sequence = node.publishedReceipts.length := by
      refine ⟨?_, ?_, ?_⟩
      · rw [sound.identity_eq, same]
        rfl
      · rw [same]
        rfl
      · rw [receipts, History.receipts_length, length]
    have digest : Store.receiptDigestFrom X.schema node.publishedReceipts
        r.proposal.checkpoint.sequence = .ok r.proposal.checkpoint.receiptDigest := by
      have numbered := (h.upTo r.proposal.checkpoint.sequence).receipts_numbered
      have count := (h.upTo r.proposal.checkpoint.sequence).receipts_length.trans length
      rw [receipts, Store.receiptDigestFrom_eq numbered (by omega) (by omega),
        List.take_of_length_le (by omega)]
      exact congrArg (fun c => Except.ok c.receiptDigest) same.symm
    have history : node.store.calculate X.schema node.identity true
        (some r.proposal.checkpoint.sequence) = .ok r.proposal.checkpoint := by
      rw [sound.identity_eq, sound.store.calculate_at true above within, ← same]
    dsimp only
    rw [ensure_of metadata, if_pos view, digest]
    simp only [ok_bind, pure_eq, decide_true]
    rw [ensure_of trivial, ok_bind, history, ok_bind, ensure_of rfl]
    rfl

theorem validatePrimaryBase_eq : node.validatePrimaryBase X = .ok () := by
  unfold validatePrimaryBase
  rw [sound.unbound]
  by_cases role : node.role = .primary
  · cases stored : node.store.base with
    | none => simp [role]
    | some b =>
      obtain ⟨r, published, confirmed, checkpoint, generation⟩ :=
        sound.primaryBase role b stored
      have publication := sound.publication
      unfold PublicationOf at publication
      rw [published] at publication
      have form : r.proposal.checkpoint.identity = node.identity ∧
          r.proposal.checkpoint.format = 1 := by
        rw [publication.2.2.1, sound.identity_eq]
        exact ⟨rfl, rfl⟩
      rw [checkpoint] at form
      simp [role, sound.validatePublication_eq, published, confirmed, checkpoint,
        bindProposal, Publication.Proposal.generationOf, form, generation.symm]
  · simp [role]

theorem reopen_eq : node.reopen X = .ok () := by
  have supported : node.identity.schema = 1 ∧ 0 < node.identity.epoch := by
    rw [sound.identity_eq]
    exact sound.supported
  have current : node.store.current X.schema node.identity false =
      .ok (h.checkpoint, node.store.data) := by
    rw [sound.identity_eq]
    exact sound.store.current_any
  rw [reopen, ensure_of supported, ok_bind, current, ok_bind,
    sound.validatePublication_eq, ok_bind, sound.validatePrimaryBase_eq]

end Sound

end Node

/-! For every reply a sound node can give, what held before the call and what it changed. -/

namespace Node

/-- Replace the journal; the revision trigger draws a value. -/
def setLog (node : Node D) (log : List (RefEntry D)) (random : Bytes32) : Node D :=
  { node with store := { node.store with log := log, revision := random } }

/-- The tables after the pending entry was applied. -/
def finishTail (X : Engine D) (node : Node D) (h : History X.schema identity)
    (e : RefEntry D) (view : View) (readiness : Option (Checkpoint ℕ D))
    (random : Bytes32) : Node D :=
  { node with store := { node.store with
      data := view
      log := h.entries ++ [e.withState .applied]
      receipts := h.receipts ++ [e.receipt X.schema]
      readiness := readiness
      revision := random } }

namespace Sound

variable {node node' : Node D} {h h' : History X.schema identity}
  {tail tail' : Option (RefEntry D)} {e : RefEntry D} {random : Bytes32}

theorem withStore (sound : node.Sound h tail) (grows : History.Grows h h')
    {store : RefStore D} (rep : store.Represents h' tail')
    (base : store.base = node.store.base) (generation : store.generation = node.store.generation) :
    { node with store := store }.Sound h' tail' := { sound with
  store := rep
  publication := by
    have publication := sound.publication
    unfold PublicationOf at publication ⊢
    cases found : node.published with
    | none =>
      rw [found] at publication
      exact publication
    | some r =>
      rw [found] at publication
      obtain ⟨above, within, same, view, receipts⟩ := publication
      refine ⟨base ▸ above, Nat.le_trans within grows.length_le, ?_, view, ?_⟩
      · rw [grows.upTo_eq within]
        exact same
      · rw [grows.upTo_eq within]
        exact receipts
  primaryBase := by
    intro role b stored
    rw [base] at stored
    obtain ⟨r, published, confirmed, checkpoint, current⟩ := sound.primaryBase role b stored
    exact ⟨r, published, confirmed, checkpoint, current.trans generation.symm⟩
  transfers := ⟨sound.transfers.snapshot, sound.transfers.materialized⟩ }

theorem append (sound : node.Sound h none) (next : h.Next e) (pending : e.state ≠ .applied) :
    (node.setLog (node.store.log ++ [e]) random).Sound h (some e) :=
  sound.withStore (.refl h) (sound.store.append next pending random) rfl rfl

theorem restate (sound : node.Sound h (some e)) {state : State} (pending : state ≠ .applied) :
    (node.setLog (h.entries ++ [e.withState state]) random).Sound h (some (e.withState state)) :=
  sound.withStore (.refl h) (sound.store.restate pending random) rfl rfl

theorem remove (sound : node.Sound h (some e)) :
    (node.setLog h.entries random).Sound h none :=
  sound.withStore (.refl h) (sound.store.remove random) rfl rfl

theorem finish (sound : node.Sound h (some e)) {view : View}
    (after : X.schema.viewDigest view = e.after) (readiness : Option (Checkpoint ℕ D)) :
    (node.finishTail X h e view readiness random).Sound
      (h.push e (sound.store.next e rfl)) none :=
  sound.withStore (.push _) ((sound.store.finish after random).frame readiness _ _) rfl rfl

variable (sound : node.Sound h tail)
include sound

theorem confirm (readiness : Option (Checkpoint ℕ D)) :
    { node with store := { node.store with readiness := readiness } }.Sound h tail :=
  sound.withStore (.refl h) (sound.store.frame readiness _ _) rfl rfl

variable [DecidableEq D]

theorem prepare_ok {batch : Batch Change ℕ} (ok : node.prepare X batch random = .ok (e, node')) :
    node.role = .primary ∧ batch.identity = identity ∧ e.batch = batch ∧
    ((e ∈ node.store.log ∧ node' = node) ∨
      (tail = none ∧ (∀ r ∈ node.published, r.phase = .confirmed) ∧ e.state = .prepared ∧
        h.Next e ∧ node' = node.setLog (node.store.log ++ [e]) random)) := by
  simp only [prepare, ensure_bind_eq_ok] at ok
  obtain ⟨role, ⟨scope, name⟩, ok⟩ := ok
  rw [sound.admission_eq, ok_bind, sound.store.byOperation_eq, ok_bind] at ok
  rw [sound.identity_eq] at scope
  cases found : node.store.log.find? fun e => e.batch.operationId = batch.operationId with
  | some old =>
    simp only [found, checked_ok, exists_and_left, exists_const] at ok
    obtain ⟨_, _, same, rfl, rfl⟩ := ok
    exact ⟨role, scope, same, .inl ⟨List.mem_of_find?_eq_some found, rfl⟩⟩
  | none =>
    simp only [found] at ok
    rw [sound.store.getReceipt_eq, ok_bind, sound.journalHead_eq] at ok
    simp only [checked_ok, exists_and_left, exists_const, Prod.exists, publicationIdle,
      exists_eq_left'] at ok
    obtain ⟨unknown, bound, idle, resolved, next, changeset, captured, fits, store, saved, rfl,
      rfl⟩ := ok
    have none := sound.store.resolved_iff.mp resolved
    subst none
    have absent : batch.operationId ∉ h.operations := by
      intro mem
      rw [sound.store.receipt?_eq, List.find?_eq_none] at unknown
      obtain ⟨r, known, same⟩ := List.mem_map.mp mem
      exact unknown r known (decide_eq_true same)
    have limit : h.length + 1 < 2 ^ 63 := by
      simp only [Store.save, Store.write, checked_ok] at saved
      obtain ⟨_, ⟨⟨_, small, _⟩, _⟩, _⟩ := saved
      simpa [preparedEntry] using small
    have link : h.Next (node.preparedEntry X batch (h.length + 1) next changeset) := by
      refine ⟨⟨scope, rfl, name, ?_, limit, sound.store.data, fits⟩, absent⟩
      simp [preparedEntry]
    refine ⟨role, scope, rfl, .inr ⟨rfl, idle, rfl, link, ?_⟩⟩
    have written := sound.store.save_new link (by simp [preparedEntry]) random
    have same := ok_unique saved written
    rw [same]
    rfl

theorem decide_ok {id : String} (ok : node.decide X id random = .ok (e, node')) :
    node.role = .primary ∧ e.batch.operationId = id ∧
    ((e ∈ node.store.log ∧ e.state ≠ .prepared ∧ node' = node) ∨
      (∃ e', tail = some e' ∧ e'.state = .prepared ∧ e = e'.withState .decided ∧
        node' = node.setLog (h.entries ++ [e]) random)) := by
  simp only [Node.decide, ensure_bind_eq_ok] at ok
  obtain ⟨role, ok⟩ := ok
  rw [sound.admission_eq, ok_bind, sound.store.byOperation_eq, ok_bind] at ok
  cases found : node.store.log.find? fun e => e.batch.operationId = id with
  | none => simp [found] at ok
  | some old =>
    have same : old.batch.operationId = id := of_decide_eq_true (List.find?_some found :)
    have mem := List.mem_of_find?_eq_some found
    simp only [found] at ok
    by_cases prepared : old.state = .prepared
    · have pending : tail = some old := by
        rcases sound.store.mem_log.mp mem with done | last
        · rw [h.applied old done] at prepared
          simp at prepared
        · exact last
      subst pending
      rw [if_pos prepared, sound.store.save_restated (by simp) random] at ok
      simp only [ok_bind, run_ok] at ok
      obtain ⟨rfl, rfl⟩ := ok
      exact ⟨role, same, .inr ⟨old, rfl, prepared, rfl, rfl⟩⟩
    · rw [if_neg prepared] at ok
      simp only [run_ok] at ok
      obtain ⟨rfl, rfl⟩ := ok
      exact ⟨role, same, .inl ⟨mem, prepared, rfl⟩⟩

theorem readVerified_eq : node.readVerified X =
    .ok (Decidable.decide (node.role = .secondary ∧
      node.store.readiness = some h.checkpoint)) := by
  rw [readVerified, sound.identity_eq, sound.store.verifiedView_eq]
  by_cases role : node.role = .secondary
  · by_cases ready : node.store.readiness = some h.checkpoint <;> simp [role, ready]
  · simp [role]

variable {u : Unit}

theorem apply_ok {decision : RefEntry D}
    (ok : node.apply X decision random = .ok (u, node')) :
    decision.batch.identity = identity ∧ decision.digest = decision.checksum X.schema ∧
    decision.state ≠ .prepared ∧ (∀ p ∈ node.snapshotTransfer, p.complete = true) ∧
    (∀ p ∈ node.materializedTransfer, p.complete = true) ∧
    ∃ e ∈ node.store.log, e.sequence = decision.sequence ∧ e.digest = decision.digest ∧
    ((e.state = .applied ∧ node' = node) ∨
      (∃ pending : tail = some e, (node.role = .secondary ∨ e.state = .decided) ∧
        ∃ view, X.schema.replay node.store.data e.changeset = .ok view ∧
          X.schema.viewDigest view = e.after ∧
          node' = node.finishTail X h e view
            (if node.role = .secondary ∧ node.store.readiness = some h.checkpoint then
              some (h.push e (sound.store.next e pending)).checkpoint
            else node.store.readiness) random)) := by
  simp only [Node.apply, checked_ok, Entry.validate_eq_ok, exists_and_left, exists_const,
    transferIdle, materializedIdle, sound.admission_eq, true_and] at ok
  obtain ⟨⟨scope, digest⟩, decided, ⟨materialized, snapshot⟩, ok⟩ := ok
  rw [sound.identity_eq] at scope
  refine ⟨scope, digest, decided, snapshot, materialized, ?_⟩
  obtain ⟨row, lookup, ok⟩ := ok
  obtain ⟨_, found⟩ := sound.store.bySequence_found lookup
  cases row with
  | none => simp at ok
  | some e =>
    have mem := List.mem_of_find?_eq_some found
    have sequence : e.sequence = decision.sequence := of_decide_eq_true (List.find?_some found :)
    simp only [ensure_bind_eq_ok] at ok
    obtain ⟨same, ok⟩ := ok
    refine ⟨e, mem, sequence, same, ?_⟩
    by_cases applied : e.state = .applied
    · simp only [if_pos applied, run_ok] at ok
      obtain ⟨_, _, _, rfl⟩ := ok
      exact .inl ⟨applied, rfl⟩
    · have pending : tail = some e := by
        rcases sound.store.mem_log.mp mem with done | last
        · exact absurd (h.applied e done) applied
        · exact last
      subst pending
      simp only [if_neg applied, checked_ok, exists_and_left, exists_const, sound.readVerified_eq,
        exists_eq_left', Schema.replayData_eq_ok] at ok
      obtain ⟨allowed, base, view, ⟨_, replayed, after⟩, store, saved, store', advanced, _,
        rfl⟩ := ok
      refine .inr ⟨rfl, allowed, view, replayed, after, ?_⟩
      rw [sound.store.save_applied view random] at saved
      obtain rfl := Except.ok.inj saved
      have rep := sound.store.finish after random
      by_cases ready : node.role = .secondary ∧ node.store.readiness = some h.checkpoint
      · rw [decide_eq_true ready, keepVerified, if_pos rfl, sound.identity_eq,
          rep.advanceReadiness_eq] at advanced
        obtain rfl := Except.ok.inj advanced
        rw [if_pos ready]
        rfl
      · rw [decide_eq_false ready, keepVerified, if_neg (by simp)] at advanced
        obtain rfl := Except.ok.inj advanced
        rw [if_neg ready]
        rfl

omit [DecidableEq D] in
omit sound in
theorem filter_tail (sound : node.Sound h (some e)) :
    (node.store.log.filter fun row => row.batch.operationId ≠ e.batch.operationId) =
      h.entries := by
  have log : node.store.log = h.entries ++ [e] := by simpa using sound.store.log_eq
  have kept : h.entries.filter (fun row => row.batch.operationId ≠ e.batch.operationId) =
      h.entries := by
    rw [List.filter_eq_self]
    intro row mem
    have fresh := (sound.store.next e rfl).fresh
    exact decide_eq_true fun same => fresh (same ▸ h.mem_operations mem)
  rw [log, List.filter_append, kept]
  simp

theorem abort_ok {id : String} (ok : node.abort X id random = .ok (u, node')) :
    ((∀ row ∈ node.store.log, row.batch.operationId ≠ id) ∧ node' = node) ∨
      (∃ e, tail = some e ∧ e.state = .prepared ∧ e.batch.operationId = id ∧
        node' = node.setLog h.entries random) := by
  simp only [Node.abort, sound.admission_eq, ok_bind, run_ok] at ok
  obtain ⟨_, row, lookup, ok⟩ := ok
  rw [sound.store.byOperation_eq] at lookup
  have found := Except.ok.inj lookup
  cases row with
  | none =>
    simp only [run_ok] at ok
    refine .inl ⟨?_, ok.2.symm⟩
    intro row mem same
    exact List.find?_eq_none.mp found row mem (decide_eq_true same)
  | some e =>
    have mem := List.mem_of_find?_eq_some found
    have same : e.batch.operationId = id := of_decide_eq_true (List.find?_some found :)
    simp only [checked_ok, exists_and_left, exists_const] at ok
    obtain ⟨last, looked, rfl, _, rfl⟩ := ok
    have prepared : e.state = .prepared := by
      by_contra other
      rw [abortable, if_neg other] at looked
      simp at looked
    have pending : tail = some e := by
      rcases sound.store.mem_log.mp mem with done | last
      · rw [h.applied e done] at prepared
        simp at prepared
      · exact last
    subst pending
    refine .inr ⟨e, rfl, prepared, same, ?_⟩
    subst same
    rw [sound.filter_tail]
    rfl

/-- Without the receipt check that `prepare` makes, freshness is known only with
respect to the journal rows. -/
theorem stage_ok {entry : RefEntry D} (ok : node.stage X entry random = .ok (u, node')) :
    node.role = .secondary ∧
    ((∃ old ∈ node.store.log, old.sequence = entry.sequence ∧ old.digest = entry.digest ∧
        node' = node) ∨
      (tail = none ∧ (∀ r ∈ node.published, r.phase = .confirmed) ∧
        (∀ row ∈ node.store.log, row.sequence ≠ entry.sequence) ∧
        Anchor.Linked X.schema identity h.anchor entry ∧
        (∀ row ∈ node.store.log, row.batch.operationId ≠ entry.batch.operationId) ∧
        (∃ view, X.schema.replay node.store.data entry.changeset = .ok view ∧
          X.schema.viewDigest view = entry.after) ∧
        node' = node.setLog (node.store.log ++ [entry.withState .prepared]) random)) := by
  simp only [Node.stage, run_ok, Entry.validate_eq_ok, ensure_eq_ok, exists_and_left,
    exists_const, sound.admission_eq, true_and] at ok
  obtain ⟨role, ⟨scope, digest⟩, fits, idle, row, lookup, ok⟩ := ok
  rw [sound.identity_eq] at scope
  refine ⟨role, ?_⟩
  obtain ⟨bound, found⟩ := sound.store.bySequence_found lookup
  cases row with
  | some old =>
    simp only [ensure_bind_eq_ok, pure_inj, Prod.mk.injEq] at ok
    obtain ⟨same, _, rfl⟩ := ok
    exact .inl ⟨old, List.mem_of_find?_eq_some found, of_decide_eq_true (List.find?_some found :),
      same, rfl⟩
  | none =>
    simp only [sound.journalHead_eq, ok_bind, checked_ok, exists_and_left, exists_const,
      publicationIdle, Schema.replayData_eq_ok] at ok
    obtain ⟨confirmed, ⟨sequence, resolved⟩, base, view, ⟨_, replayed, after⟩, store, saved, _,
      rfl⟩ := ok
    have none := sound.store.resolved_iff.mp resolved
    subst none
    have unused : ∀ row ∈ node.store.log, row.sequence ≠ entry.sequence := by
      intro row mem same
      exact List.find?_eq_none.mp found row mem (decide_eq_true same)
    simp only [Store.save, run_ok] at saved
    obtain ⟨written, wrote, saved⟩ := saved
    have name : entry.batch.operationId ≠ "" := by
      simp only [Store.write, ensure_bind_eq_ok] at wrote
      exact wrote.1.2.2
    have linked : Anchor.Linked X.schema identity h.anchor entry := by
      refine ⟨scope, digest, name, ?_, bound, ?_, fits⟩
      · simpa using sequence
      · exact base.symm.trans sound.store.data
    have fresh : ∀ row ∈ node.store.log, row.batch.operationId ≠ entry.batch.operationId := by
      simp only [Store.write, run_ok] at wrote
      obtain ⟨_, _, admitted, _⟩ := wrote
      simp only [Store.admitRow] at admitted
      have absent : node.store.log.find? (fun row =>
          row.sequence = (entry.withState .prepared).sequence) = none := found
      rw [absent] at admitted
      exact Checked.ensure_eq_ok.mp admitted
    refine .inr ⟨rfl, confirmed, unused, linked, fresh, ⟨view, replayed, after⟩, ?_⟩
    have again := sound.store.write_new (linked.withState .prepared) node.store.data random fresh
    obtain rfl := ok_unique wrote again
    rw [if_neg (by simp [Entry.withState])] at saved
    obtain rfl := Except.ok.inj saved
    rfl

theorem confirmCheckpoint_ok {expected : Checkpoint ℕ D}
    (ok : node.confirmCheckpoint X expected = .ok (u, node')) :
    node.role = .secondary ∧ tail = none ∧ expected = h.checkpoint ∧
      node' = { node with store := { node.store with readiness := some h.checkpoint } } := by
  simp only [Node.confirmCheckpoint, checked_ok, exists_and_left, exists_const, sound.identity_eq,
    sound.store.current_eq] at ok
  obtain ⟨⟨role, scope⟩, idle, ⟨actual, view⟩, current, ok⟩ := ok
  split_ifs at current with pending
  have resolved : tail = none := by simpa using pending
  obtain ⟨rfl, rfl⟩ := Prod.mk.inj (Except.ok.inj current)
  simp only [] at ok
  obtain ⟨same, _, rfl⟩ := ok
  exact ⟨role, resolved, same.symm, by rw [same, sound.identity_eq]⟩

end Sound

end Node

end TerrapiVault.Replication
