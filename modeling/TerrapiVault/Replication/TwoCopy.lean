import TerrapiVault.Replication.PairRuns
import TerrapiVault.Replication.Sample

/-! The two journals of a pair, in every state a coordinator can leave them in and
after a recovery. -/
namespace TerrapiVault.Replication

open CrashLogic Protocol

variable {D : Type}

namespace Node

/-- The journal row at a sequence. -/
def entryAt (node : Node D) (n : ℕ) : Option (RefEntry D) :=
  node.store.log.find? fun e => e.sequence = n

/-- The decided and applied entries, as they are once applied. -/
def decidedEntries (node : Node D) : List (RefEntry D) :=
  (node.store.log.filter fun e => e.state ≠ .prepared).map fun e => e.withState .applied

end Node

/-- The secondary follows the primary, and the primary applies last. -/
structure TwoCopy (p s : Node D) : Prop where
  copied : ∀ n e', s.entryAt n = some e' → ∃ e, p.entryAt n = some e ∧ e.digest = e'.digest
  decided : ∀ n e', s.entryAt n = some e' → e'.state = .applied →
    ∃ e, p.entryAt n = some e ∧ (e.state = .decided ∨ e.state = .applied)
  applied : ∀ n e, p.entryAt n = some e → e.state = .applied →
    ∃ e', s.entryAt n = some e' ∧ e'.state = .applied

variable {X : Engine D} {identity : Identity ℕ}

theorem Node.Sound.entryAt_eq {node : Node D} {h : History X.schema identity}
    {tail : Option (RefEntry D)} (sound : node.Sound h tail) {n : ℕ}
    {e : RefEntry D} : node.entryAt n = some e ↔ e ∈ node.store.log ∧ e.sequence = n := by
  constructor
  · intro found
    have found : node.store.log.find? (fun e => e.sequence = n) = some e := found
    have matched := List.find?_some found
    exact ⟨List.mem_of_find?_eq_some found, of_decide_eq_true matched⟩
  · intro ⟨mem, at_⟩
    rw [← at_]
    exact sound.store.consecutive.find?_key mem

namespace Protocol.Agree

variable {a : Position X identity} {p s : Node D} {e : RefEntry D}

variable (agree : Agree a p s)
include agree

theorem mem_primary (mem : e ∈ s.store.log) :
    ∃ e' ∈ p.store.log, e'.withState e.state = e ∧ (e.state = .applied → e'.state ≠ .prepared) := by
  have old : ∀ e ∈ a.history.entries, ∃ e' ∈ p.store.log, e'.withState e.state = e ∧
      (e.state = .applied → e'.state ≠ .prepared) := by
    intro e mem
    refine ⟨e, agree.primary.store.mem_log.mpr (.inl mem), rfl, fun applied => ?_⟩
    simp [applied]
  have new : ∀ t ∈ a.phase.primaryTail, t ∈ p.store.log :=
    fun t tail => agree.primary.store.mem_log.mpr (.inr tail)
  have split := agree.secondary.store.mem_log.mp mem
  obtain ⟨h, phase, stage⟩ := a
  cases phase with
  | idle => exact old e (split.resolve_right (by simp [Phase.secondaryTail]))
  | prepared t next => exact old e (split.resolve_right (by simp [Phase.secondaryTail]))
  | staged t next =>
    rcases split with applied | tail
    · exact old e applied
    · obtain rfl := Option.some.inj tail
      exact ⟨_, new _ rfl, rfl, by simp [Entry.withState]⟩
  | decided t next =>
    rcases split with applied | tail
    · exact old e applied
    · obtain rfl := Option.some.inj tail
      exact ⟨_, new _ rfl, rfl, by simp [Entry.withState]⟩
  | landed t next =>
    have applied := split.resolve_right (by simp [Phase.secondaryTail])
    rcases List.mem_append.mp applied with applied | last
    · exact old e applied
    · obtain rfl := List.mem_singleton.mp last
      exact ⟨_, new _ rfl, rfl, by simp [Entry.withState]⟩

theorem mem_secondary (mem : e ∈ p.store.log) (applied : e.state = .applied) : e ∈ s.store.log := by
  rcases agree.primary.store.mem_log.mp mem with old | new
  · exact agree.secondary.store.mem_log.mpr (.inl (a.history_grows.entries_prefix.subset old))
  · exact absurd applied (agree.primary.store.pending e new)

theorem twoCopy : TwoCopy p s where
  copied := by
    intro n e found
    obtain ⟨mem, sequence⟩ := agree.secondary.entryAt_eq.mp found
    obtain ⟨e', mem', same, _⟩ := agree.mem_primary mem
    exact ⟨e', agree.primary.entryAt_eq.mpr ⟨mem', by rw [← sequence, ← same]; rfl⟩,
      by rw [← same]; rfl⟩
  decided := by
    intro n e found applied
    obtain ⟨mem, sequence⟩ := agree.secondary.entryAt_eq.mp found
    obtain ⟨e', mem', same, decided⟩ := agree.mem_primary mem
    refine ⟨e', agree.primary.entryAt_eq.mpr ⟨mem', by rw [← sequence, ← same]; rfl⟩, ?_⟩
    have pending := decided applied
    cases state : e'.state <;> simp_all
  applied := by
    intro n e found applied
    obtain ⟨mem, sequence⟩ := agree.primary.entryAt_eq.mp found
    exact ⟨e, agree.secondary.entryAt_eq.mpr ⟨agree.mem_secondary mem applied, sequence⟩, applied⟩

theorem decidedEntries_eq : p.decidedEntries = a.committed.entries := by
  have kept : (a.history.entries.filter fun e => e.state ≠ .prepared) = a.history.entries := by
    refine List.filter_eq_self.mpr fun e mem => ?_
    simp [a.history.applied e mem]
  have same : a.history.entries.map (fun e => e.withState .applied) = a.history.entries := by
    refine (List.map_congr_left fun e mem => ?_).trans (List.map_id _)
    rw [← a.history.applied e mem]
    rfl
  rw [Node.decidedEntries, agree.primary.store.log_eq, List.filter_append, List.map_append, kept,
    same]
  obtain ⟨h, phase, stage⟩ := a
  cases phase with
  | idle => simp [Phase.primaryTail, Position.committed, Phase.committed]
  | prepared t next =>
    simp [Phase.primaryTail, Position.committed, Phase.committed, Entry.withState]
  | staged t next =>
    simp [Phase.primaryTail, Position.committed, Phase.committed, Entry.withState]
  | decided t next =>
    simp [Phase.primaryTail, Position.committed, Phase.committed, Entry.withState]
  | landed t next =>
    simp [Phase.primaryTail, Position.committed, Phase.committed, Entry.withState]

theorem prepared_fresh (mem : e ∈ p.store.log) (prepared : e.state = .prepared) :
    e.batch.operationId ∉ a.committed.operations := by
  rcases agree.primary.store.mem_log.mp mem with old | tail
  · rw [a.history.applied e old] at prepared
    simp at prepared
  · have fresh := (agree.primary.store.next e tail).fresh
    obtain ⟨h, phase, stage⟩ := a
    cases phase with
    | idle => exact fresh
    | prepared t next => exact fresh
    | staged t next => exact fresh
    | decided t next =>
      obtain rfl := Option.some.inj tail
      simp [Entry.withState] at prepared
    | landed t next =>
      obtain rfl := Option.some.inj tail
      simp [Entry.withState] at prepared

variable [DecidableEq D]

/-- Staging an entry of the primary never finds another entry in its place. -/
theorem stage_primary (mem : e ∈ p.store.log) {random : Bytes32} {fault : Fault}
    (failed : s.stage X e random = .error fault) : ¬Divergence fault := by
  have known : ∀ row ∈ s.store.log, row.withState e.state = e → ¬Divergence fault := by
    intro row held same
    have again : s.stage X (row.withState e.state) random = _ :=
      agree.secondary.stage_again agree.paired.secondaryRole agree.paired.secondaryIdle held
    rw [same, failed] at again
    simp at again
  rcases agree.primary.store.mem_log.mp mem with old | tail
  · exact known e (agree.mem_secondary mem (a.history.applied e old)) rfl
  · obtain ⟨h, phase, stage⟩ := a
    cases phase with
    | idle => simp [Phase.primaryTail] at tail
    | prepared t next =>
      obtain rfl := Option.some.inj tail
      exact agree.stage_error failed
    | staged t next => exact known e (agree.secondary.store.mem_log.mpr (.inr tail)) rfl
    | decided t next =>
      obtain rfl := Option.some.inj tail
      exact known _ (agree.secondary.store.mem_log.mpr (.inr rfl)) rfl
    | landed t next =>
      obtain rfl := Option.some.inj tail
      have applied : t.withState .applied ∈ (h.push t next).entries := by simp
      exact known _ (agree.secondary.store.mem_log.mpr (.inl applied)) rfl

end Protocol.Agree

variable [DecidableEq D] {generation revision generation' revision' : Bytes32} {pair : Pair D}

/-- In every state a coordinator leaves a pair in, the two journals agree, and neither
`recover` nor `commit` nor the staging of a primary's entry reports a divergence. -/
theorem pair_agrees (supported : identity.schema = 1 ∧ 0 < identity.epoch)
    (reachable : Reachable X Choice.Alone (fun _ => True)
      (Pair.create identity generation revision generation' revision') pair) :
    TwoCopy pair.primary pair.secondary ∧
    (∀ choices n fault, (∀ n, (choices n).Alone) →
      (Pair.recover X choices n pair).value? = some (.error fault) → ¬Divergence fault) ∧
    (∀ batch choices n fault, (∀ n, (choices n).Alone) →
      (Pair.commit X batch choices n pair).value? = some (.error fault) → ¬Divergence fault) ∧
    (∀ e ∈ pair.primary.store.log, ∀ random fault,
      pair.secondary.stage X e random = .error fault → ¬Divergence fault) := by
  obtain ⟨a, _, holds⟩ := reachable.moves (Pair.create_holds X supported ..)
  have agree := holds.agree
  have nobody : ∀ choice : Choice D, choice.Alone → choice.others = [] := fun _ alone => alone
  refine ⟨agree.twoCopy, ?_, ?_, fun e mem random fault failed => agree.stage_primary mem failed⟩
  · intro choices n fault alone ran
    have spec : Triple _ _ _ _ _ (Pair.Failed Choice.Alone .resolve a fun _ _ => False) :=
      Pair.recover_spec nobody
    rcases (spec.failed alone ⟨a, .refl, holds⟩ ran).1 with ⟨rfl, _⟩ | never
    · decide
    · exact never.elim
  · intro batch choices n fault alone ran
    rcases ((Pair.commit_spec nobody).failed alone ⟨a, .refl, holds⟩ ran).1 with ⟨rfl, _⟩ | other
    · decide
    · exact other

/-- Whatever fails in between, what the primary has decided is never reordered or taken back. -/
theorem decided_entries_kept (supported : identity.schema = 1 ∧ 0 < identity.epoch)
    (reachable : Reachable X Choice.Alone (fun _ => True)
      (Pair.create identity generation revision generation' revision') pair) {after : Pair D}
    (later : Reachable X Choice.Alone (fun _ => True) pair after) :
    pair.primary.decidedEntries <+: after.primary.decidedEntries := by
  obtain ⟨a, _, holds⟩ := reachable.moves (Pair.create_holds X supported ..)
  obtain ⟨b, moves, holds'⟩ := later.moves holds
  rw [holds.agree.decidedEntries_eq, holds'.agree.decidedEntries_eq]
  exact moves.committed_grows.entries_prefix

namespace Sample

def emptyPair : Pair Term := Pair.create pairIdentity (draw 1) (draw 2) (draw 3) (draw 4)

/-- Every call is answered. -/
def steady (_ : ℕ) : Choice Term where
  land := false
  others := []
  stopBefore := false
  stopAfter := false
  answered := true
  random := draw 0

theorem steady_calm (n : ℕ) : (steady n).Calm := ⟨rfl, rfl, rfl, rfl⟩

/-- Only the step numbered `k` stays without a reply. -/
def losing (k n : ℕ) : Choice Term :=
  { steady n with answered := n ≠ k }

/-- The process stops after the step numbered `k`. -/
def stopping (k n : ℕ) : Choice Term :=
  { steady n with stopAfter := n = k }

theorem losing_alone (k n : ℕ) : (losing k n).Alone := rfl

/-- A first commit whose decision never reaches the secondary: the twelfth step is the
secondary's `apply`. -/
def placedPair : Pair Term := (Command.commit (placeBatch "a")).exec engine (losing 11) emptyPair

theorem placedPair_reachable :
    Reachable engine Choice.Alone (fun _ => True) emptyPair placedPair :=
  .command (.commit (placeBatch "a")) (losing 11) .refl trivial (losing_alone 11)

theorem pair_agrees_placed :
    (placedPair.primary.store.log.map Entry.state = [.decided] ∧
      placedPair.secondary.store.log.map Entry.state = [.prepared]) ∧
    TwoCopy placedPair.primary placedPair.secondary :=
  ⟨by decide +kernel, (pair_agrees (by decide) placedPair_reachable).1⟩

theorem decided_entries_kept_placed : placedPair.primary.decidedEntries <+:
    (Command.recover.exec engine (losing 1) placedPair).primary.decidedEntries :=
  decided_entries_kept (by decide) placedPair_reachable
    (.command .recover _ .refl trivial (losing_alone 1))

end Sample

/-- What a recovery makes of a pair. -/
structure Converged (X : Engine D) (before after : Pair D) : Prop where
  primary : after.primary.store.log = before.primary.decidedEntries
  secondary : after.secondary.store.log = before.primary.decidedEntries
  applied : ∀ e ∈ after.primary.store.log ++ after.secondary.store.log, e.state = .applied
  withdrawn : ∀ e ∈ before.primary.store.log, e.state = .prepared →
    ∀ row ∈ after.primary.store.log ++ after.secondary.store.log,
      row.batch.operationId ≠ e.batch.operationId
  checkpoint : ∃ checkpoint, after.primary.checkpoint X = .ok checkpoint ∧
    after.secondary.checkpoint X = .ok checkpoint ∧
    after.secondary.store.readiness = some checkpoint

/-- With every call answered `recover` succeeds from every state a coordinator leaves a
pair in, and carries the decided history to both nodes. -/
theorem recover_converges (supported : identity.schema = 1 ∧ 0 < identity.epoch)
    (reachable : Reachable X Choice.Alone (fun _ => True)
      (Pair.create identity generation revision generation' revision') pair)
    {choices : ℕ → Choice D} (calm : ∀ n, (choices n).Calm) (n : ℕ) :
    ∃ completed, (Pair.recover X choices n pair).value? = some (.ok completed) ∧
      Converged X pair (Pair.recover X choices n pair).final := by
  obtain ⟨a, _, holds⟩ := reachable.moves (Pair.create_holds X supported ..)
  have spec : Triple _ _ _ _ _ (Pair.Failed Choice.Calm .resolve a fun _ _ => False) :=
    Pair.recover_spec fun _ calm => calm.alone
  obtain ⟨completed, ran, h, stage, p, s, ⟨steps, agree, ready⟩, here⟩ :=
    spec.returns (fun _ crashed => Pair.calm_not_stoppable (fun _ calm => calm) crashed.1)
      (fun _ _ failed => failed.1.elim (fun lost => Pair.calm_not_lossy (fun _ calm => calm) lost.2)
        id) calm n ⟨a, .refl, holds⟩
  refine ⟨completed, ran, ?_⟩
  generalize (Pair.recover X choices n pair).final = pair' at here ⊢
  have committed : h = a.committed := steps.committed_eq
  have entries : pair.primary.decidedEntries = h.entries := by
    rw [holds.agree.decidedEntries_eq, committed]
  have primary : p.store.log = h.entries := by
    rw [agree.primary.store.log_eq]
    exact List.append_nil _
  have secondary : s.store.log = h.entries := by
    rw [agree.secondary.store.log_eq]
    exact List.append_nil _
  obtain ⟨rfl, rfl⟩ := And.intro here.primary_eq here.secondary_eq
  have both : ∀ {row}, row ∈ pair'.primary.store.log ++ pair'.secondary.store.log →
      row ∈ h.entries := by
    intro row mem
    rw [primary, secondary] at mem
    exact (List.mem_append.mp mem).elim id id
  exact
    { primary := primary.trans entries.symm
      secondary := secondary.trans entries.symm
      applied := fun e mem => h.applied e (both mem)
      withdrawn := by
        intro e mem prepared row inside same
        refine holds.agree.prepared_fresh mem prepared ?_
        rw [← committed, ← same]
        exact h.mem_operations (both inside)
      checkpoint := ⟨h.checkpoint, agree.primary.checkpoint_eq rfl,
        agree.secondary.checkpoint_eq rfl, ready⟩ }

theorem Sample.recover_converges_placed : ∃ completed,
    (Pair.recover Sample.engine Sample.steady 0 Sample.placedPair).value? = some (.ok completed) ∧
      Converged Sample.engine Sample.placedPair
        (Pair.recover Sample.engine Sample.steady 0 Sample.placedPair).final :=
  recover_converges (by decide) Sample.placedPair_reachable Sample.steady_calm 0

end TerrapiVault.Replication
