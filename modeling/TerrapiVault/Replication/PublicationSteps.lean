import TerrapiVault.Replication.NodeSteps

/-! Successful publication calls, read backwards, and when they succeed. -/
namespace TerrapiVault.Replication

variable {D : Type} {X : Engine D} {identity : Identity ℕ}

namespace Node

/-- What `bind` checks of a proposal. -/
structure Bound (node : Node D) (p : Publication.Proposal D) : Prop where
  identity_eq : p.checkpoint.identity = node.identity
  format_eq : p.checkpoint.format = 1
  generation_eq : node.store.generation = p.generationOf node.role

variable {node : Node D}

theorem bindProposal_eq_ok {p : Publication.Proposal D} {u : Unit} :
    node.bindProposal p = .ok u ↔ node.Bound p := by
  simp only [bindProposal, ensure_bind_eq_ok, ensure_eq_ok]
  constructor
  · intro checked
    exact ⟨checked.1.1, checked.1.2, checked.2⟩
  · intro bound
    exact ⟨⟨bound.identity_eq, bound.format_eq⟩, bound.generation_eq⟩

theorem Bound.eq {p : Publication.Proposal D} (bound : node.Bound p) :
    node.bindProposal p = .ok () :=
  bindProposal_eq_ok.mpr bound

/-- The node after copying its live tables under a proposal. -/
def captured (node : Node D) (p : Publication.Proposal D) : Node D :=
  { node with published := some ⟨p, .captured⟩
              publishedView := node.store.data
              publishedReceipts := node.store.receipts }

/-- The node after activating a checkpoint as the base. -/
def rebased (node : Node D) (base : Checkpoint ℕ D) (random : Bytes32) : Node D :=
  { node with store := { node.store with base := some base, revision := random } }

/-- No transfer is open. -/
def Idle (node : Node D) : Prop :=
  (∀ p ∈ node.materializedTransfer, p.complete = true) ∧
    ∀ p ∈ node.snapshotTransfer, p.complete = true

theorem transferIdle_eq_ok {u : Unit} : node.transferIdle = .ok u ↔ node.Idle := by
  simp [transferIdle, materializedIdle, Idle]

theorem Idle.eq (idle : node.Idle) : node.transferIdle = .ok () :=
  transferIdle_eq_ok.mpr idle

/-- The published artifact fits the logical quota. -/
def WithinQuota (X : Engine D) (node : Node D) : Prop :=
  (node.publicationQuota X).1 ≤ Materialized.maxRows ∧
    (node.publicationQuota X).2 ≤ Materialized.maxBytes

namespace Sound

variable {node node' : Node D} {h : History X.schema identity}
  {tail : Option (RefEntry D)} {proposal : Publication.Proposal D}
  {r : Publication.Record D} {random : Bytes32}

theorem capture (sound : node.Sound h tail) (vacant : node.published = none) (idle : node.Idle)
    (checkpoint : proposal.checkpoint = h.checkpoint) :
    (node.captured proposal).Sound h tail := { sound with
  publication := by
    have whole := h.upTo_of_length_le (Nat.le_refl h.length)
    simp only [PublicationOf, captured]
    rw [checkpoint, h.checkpoint_sequence, whole]
    exact ⟨sound.store.base.le_length, Nat.le_refl _, rfl, sound.store.data,
      sound.store.receipts_eq⟩
  primaryBase := by
    intro role b stored
    -- a primary with a base already occupies the slot
    obtain ⟨r, published, _⟩ := sound.primaryBase role b stored
    rw [vacant] at published
    simp at published
  transfers := by
    refine ⟨?_, ?_⟩
    · intro p transfer open_
      rw [idle.2 p transfer] at open_
      simp at open_
    · intro p transfer open_
      rw [idle.1 p transfer] at open_
      simp at open_ }

theorem setPhase (sound : node.Sound h tail) (published : node.published = some r) :
    { node with published := some { r with phase := .confirmed } }.Sound h tail := { sound with
  publication := by
    have publication := sound.publication
    unfold PublicationOf at publication
    rw [published] at publication
    exact publication
  primaryBase := by
    intro role b stored
    obtain ⟨r', found, confirmed, checkpoint, generation⟩ := sound.primaryBase role b stored
    rw [published, Option.some.injEq] at found
    subst found
    exact ⟨_, rfl, rfl, checkpoint, generation⟩
  transfers := by
    refine ⟨?_, ?_⟩
    · intro p transfer unfinished
      have none := sound.transfers.snapshot p transfer unfinished
      rw [published] at none
      simp at none
    · intro p transfer unfinished
      have none := sound.transfers.materialized p transfer unfinished
      rw [published] at none
      simp at none }

theorem published_base (sound : node.Sound h tail) (published : node.published = some r) :
    h.Base (some r.proposal.checkpoint) := by
  have publication := sound.publication
  unfold PublicationOf at publication
  rw [published] at publication
  exact ⟨Nat.le_trans sound.store.base.origin_le publication.1, publication.2.1,
    publication.2.2.1⟩

theorem rebase (sound : node.Sound h tail)
    (published : node.published = some ⟨proposal, .confirmed⟩) (bound : node.Bound proposal) :
    (node.rebased proposal.checkpoint random).Sound h tail := { sound with
  store := sound.store.rebase (sound.published_base published) random
  publication := by
    have publication := sound.publication
    unfold PublicationOf at publication ⊢
    simp only [rebased, published] at publication ⊢
    exact ⟨Nat.le_refl _, publication.2⟩
  primaryBase := by
    intro role b stored
    simp only [rebased, Option.mem_def, Option.some.injEq] at role stored
    refine ⟨_, published, rfl, stored, ?_⟩
    have generation := bound.generation_eq
    rw [role] at generation
    exact generation.symm
  transfers := ⟨sound.transfers.snapshot, sound.transfers.materialized⟩ }

variable [DecidableEq D]

theorem captureBase_ok (sound : node.Sound h tail)
    (ok : node.captureBase X proposal = .ok (r, node')) :
    node.Bound proposal ∧ r.proposal = proposal ∧
    ((node.published = some r ∧ node' = node) ∨
      (node.published = none ∧ tail = none ∧ node.Idle ∧ proposal.checkpoint = h.checkpoint ∧
        node.WithinQuota X ∧ r = ⟨proposal, .captured⟩ ∧ node' = node.captured proposal)) := by
  simp only [captureBase, sound.admission_eq, sound.validatePublication_eq, ok_bind,
    bind_eq_ok, bindProposal_eq_ok, exists_and_left, exists_const] at ok
  obtain ⟨bound, ok⟩ := ok
  refine ⟨bound, ?_⟩
  cases found : node.published with
  | some old =>
    simp only [found, ensure_bind_eq_ok, pure_inj, Prod.mk.injEq] at ok
    obtain ⟨same, rfl, rfl⟩ := ok
    exact ⟨same, .inl ⟨rfl, rfl⟩⟩
  | none =>
    simp only [found, bind_eq_ok, transferIdle_eq_ok, exists_and_left, exists_const,
      sound.identity_eq, sound.store.current_eq, ensure_eq_ok] at ok
    obtain ⟨idle, ⟨current, view⟩, recomputed, checkpoint, quota, _, _, ok⟩ := ok
    split_ifs at recomputed with pending
    have resolved : tail = none := by simpa using pending
    obtain ⟨rfl, rfl⟩ := Prod.mk.inj (Except.ok.inj recomputed)
    simp only [pure_inj, Prod.mk.injEq] at ok
    obtain ⟨rfl, rfl⟩ := ok
    refine ⟨rfl, .inr ⟨rfl, resolved, idle, checkpoint.symm, quota, rfl, ?_⟩⟩
    rw [captured, ← sound.identity_eq]

theorem current_eq (sound : node.Sound h none) : node.store.current X.schema node.identity true =
    .ok (h.checkpoint, node.store.data) := by
  rw [sound.identity_eq, sound.store.current_resolved rfl]

theorem captureBase_again (sound : node.Sound h tail) (bound : node.Bound proposal)
    (published : node.published = some r) (same : r.proposal = proposal) :
    node.captureBase X proposal = .ok (r, node) := by
  simp [captureBase, sound.admission_eq, sound.validatePublication_eq,
    bound.eq, published, same]

theorem captureBase_new (sound : node.Sound h none) (bound : node.Bound proposal)
    (vacant : node.published = none) (idle : node.Idle)
    (checkpoint : proposal.checkpoint = h.checkpoint) (quota : node.WithinQuota X) :
    node.captureBase X proposal = .ok (⟨proposal, .captured⟩, node.captured proposal) := by
  have after := (sound.capture vacant idle checkpoint).validatePublication_eq
  have quota : (node.publicationQuota X).1 ≤ Materialized.maxRows ∧
      (node.publicationQuota X).2 ≤ Materialized.maxBytes := quota
  unfold captured at after ⊢
  simp only [captureBase, sound.admission_eq, sound.validatePublication_eq,
    bound.eq, vacant, ok_bind, idle.eq, sound.current_eq,
    ensure_of checkpoint.symm, ensure_of quota, after]
  rfl

theorem captureBase_over (sound : node.Sound h none) (bound : node.Bound proposal)
    (vacant : node.published = none) (idle : node.Idle)
    (checkpoint : proposal.checkpoint = h.checkpoint) (large : ¬node.WithinQuota X) :
    node.captureBase X proposal = .error (.message "published base logical quota exceeded") := by
  have large : ¬((node.publicationQuota X).1 ≤ Materialized.maxRows ∧
      (node.publicationQuota X).2 ≤ Materialized.maxBytes) := large
  simp only [captureBase, sound.admission_eq, sound.validatePublication_eq,
    bound.eq, vacant, ok_bind, idle.eq, sound.current_eq,
    ensure_of checkpoint.symm, ensure_not large]
  rfl

theorem confirmBase_ok (sound : node.Sound h tail)
    (ok : node.confirmBase X proposal = .ok (r, node')) :
    node.Bound proposal ∧ ∃ old, node.published = some old ∧ old.proposal = proposal ∧
      r = ⟨proposal, .confirmed⟩ ∧
      node' = { node with published := some ⟨proposal, .confirmed⟩ } := by
  simp only [confirmBase, sound.validatePublication_eq, ok_bind, run_ok,
    bindProposal_eq_ok, exists_and_left, exists_const] at ok
  obtain ⟨bound, ok⟩ := ok
  refine ⟨bound, ?_⟩
  cases found : node.published with
  | none => simp [found] at ok
  | some old =>
    simp only [found, ensure_bind_eq_ok, pure_inj, Prod.mk.injEq] at ok
    obtain ⟨rfl, rfl, rfl⟩ := ok
    exact ⟨old, rfl, rfl, rfl, rfl⟩

theorem confirmBase_eq (sound : node.Sound h tail) (bound : node.Bound proposal)
    (published : node.published = some r) (same : r.proposal = proposal) :
    node.confirmBase X proposal = .ok (⟨proposal, .confirmed⟩,
      { node with published := some ⟨proposal, .confirmed⟩ }) := by
  subst same
  simp [confirmBase, sound.validatePublication_eq, bound.eq, published]

theorem activate_ok (sound : node.Sound h tail) {u : Unit}
    (ok : node.activatePublishedBase X proposal random = .ok (u, node')) :
    node.Bound proposal ∧ node.published = some ⟨proposal, .confirmed⟩ ∧
    ((node.store.base = some proposal.checkpoint ∧ node' = node) ∨
      ((∀ b ∈ node.store.base, b.sequence < proposal.checkpoint.sequence) ∧ tail = none ∧
        node' = node.rebased proposal.checkpoint random)) := by
  simp only [activatePublishedBase, sound.admission_eq, sound.pairDigest_eq,
    sound.validatePublication_eq, ok_bind, bind_eq_ok, bindProposal_eq_ok,
    exists_and_left, exists_const, ensure_eq_ok, true_and] at ok
  obtain ⟨bound, ok⟩ := ok
  refine ⟨bound, ?_⟩
  cases found : node.published with
  | none => simp [found] at ok
  | some r =>
    simp only [found, ensure_bind_eq_ok] at ok
    obtain ⟨⟨confirmed, rfl⟩, ok⟩ := ok
    have record : r = ⟨r.proposal, .confirmed⟩ := by
      rw [← confirmed]
    refine ⟨congrArg some record, ?_⟩
    by_cases already : node.store.base = some r.proposal.checkpoint
    · rw [if_pos already] at ok
      simp only [pure_inj, Prod.mk.injEq] at ok
      exact .inl ⟨already, ok.2.symm⟩
    · simp only [if_neg already, bind_eq_ok, ensure_eq_ok, exists_and_left, exists_const,
        transferIdle_eq_ok, sound.identity_eq, sound.store.current_eq] at ok
      obtain ⟨forward, idle, ⟨before, view⟩, recomputed, _, _, _, ok⟩ := ok
      split_ifs at recomputed with pending
      have resolved : tail = none := by simpa using pending
      simp only [pure_inj, Prod.mk.injEq] at ok
      refine .inr ⟨forward, resolved, ?_⟩
      rw [← ok.2, rebased, ← sound.identity_eq, found]

/-- The guard after the move compares equal checkpoints and never fires. -/
theorem activate_eq (sound : node.Sound h none) (bound : node.Bound proposal)
    (published : node.published = some ⟨proposal, .confirmed⟩)
    (forward : ∀ b ∈ node.store.base, b.sequence < proposal.checkpoint.sequence)
    (idle : node.Idle) :
    node.activatePublishedBase X proposal random =
      .ok ((), node.rebased proposal.checkpoint random) := by
  have moved := sound.store.rebase (sound.published_base published) node.store.revision
  have fresh : node.store.base ≠ some proposal.checkpoint := by
    intro already
    have := forward _ already
    omega
  have after : Store.current X.schema node.identity
      { node.store with base := some proposal.checkpoint } true =
      .ok (h.checkpoint, node.store.data) := by
    rw [sound.identity_eq]
    exact moved.current_resolved rfl true
  simp only [activatePublishedBase, sound.admission_eq, sound.pairDigest_eq,
    sound.validatePublication_eq, ok_bind, bound.eq, published,
    if_neg fresh, ensure_of forward, idle.eq, sound.current_eq, after, and_self, ensure_of trivial]
  rw [rebased, published]
  rfl

theorem activate_again (sound : node.Sound h tail) (bound : node.Bound proposal)
    (published : node.published = some ⟨proposal, .confirmed⟩)
    (already : node.store.base = some proposal.checkpoint) :
    node.activatePublishedBase X proposal random = .ok ((), node) := by
  simp [activatePublishedBase, sound.admission_eq, sound.pairDigest_eq,
    sound.validatePublication_eq, bound.eq, published, already]

end Sound

end Node

end TerrapiVault.Replication
