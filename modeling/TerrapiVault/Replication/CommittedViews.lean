import TerrapiVault.Replication.TransferSteps
import TerrapiVault.Replication.TwoCopy

/-! What each call does to the read admission of a node, and the views a primary has committed
to. The two confirmations give read admission, an apply carries it along, and every other call
keeps it or takes it away. -/
namespace TerrapiVault.Replication

variable {D : Type}

namespace Store

variable {C V I : Type} [DecidableEq I] [DecidableEq D] {S : Schema C V I D}
  {st : Store C V I D} {e : Entry C I D}

theorem bySequence_checksum {n : ℕ} (ok : st.bySequence S n = .ok (some e)) :
    e.digest = e.checksum S := by
  simp only [bySequence, bind_eq_ok] at ok
  obtain ⟨m, _, ok⟩ := ok
  cases found : st.log.find? fun e => e.sequence = m with
  | none => simp [found, one] at ok
  | some row =>
    simp only [found, one, decode, run_ok, Entry.validate_eq_ok, true_and, Option.some.injEq] at ok
    obtain ⟨_, ⟨_, digest, rfl⟩, rfl⟩ := ok
    exact digest

theorem current_ok {identity : Identity I} {quiescent : Bool} {cp : Checkpoint I D} {view : V}
    (ok : st.current S identity quiescent = .ok (cp, view)) :
    view = st.data ∧ S.viewDigest st.data = cp.viewDigest := by
  simp only [current, checked_ok, exists_and_left, exists_const] at ok
  obtain ⟨_, _, same, rfl, rfl⟩ := ok
  exact ⟨rfl, same⟩

/-- A verified view is the stored one and has the digest of the stored marker. -/
theorem verifiedView_some {identity : Identity I} {view : V}
    (ok : st.verifiedView S identity = .ok (some view)) :
    ∃ m, st.readiness = some m ∧ view = st.data ∧ S.viewDigest st.data = m.viewDigest := by
  unfold verifiedView at ok
  cases ready : st.readiness with
  | none => simp [ready] at ok
  | some m =>
    simp only [ready, run_ok, Prod.exists] at ok
    obtain ⟨actual, shown, computed, ok⟩ := ok
    obtain ⟨rfl, digest⟩ := current_ok computed
    split_ifs at ok with same
    · obtain rfl := Option.some.inj ok
      exact ⟨m, rfl, rfl, same ▸ digest⟩

end Store

namespace Node

variable {node node' : Node D}

/-- A transfer has begun and is not complete. -/
def Receiving (node : Node D) : Prop :=
  (∃ p ∈ node.snapshotTransfer, p.complete = false) ∨
    ∃ p ∈ node.materializedTransfer, p.complete = false

theorem Idle.not_receiving (idle : node.Idle) : ¬node.Receiving := by
  rintro (⟨p, mem, unfinished⟩ | ⟨p, mem, unfinished⟩)
  · simp [idle.2 p mem] at unfinished
  · simp [idle.1 p mem] at unfinished

/-- Read admission stays as it is, and no transfer begins. -/
structure Kept (node node' : Node D) : Prop where
  readiness : node'.store.readiness = node.store.readiness
  receiving : node'.Receiving → node.Receiving

theorem Kept.refl (node : Node D) : Kept node node := ⟨rfl, id⟩

/-- The row a decision names was replayed and the marker moved along. -/
structure Advanced (X : Engine D) (decision : RefEntry D) (node node' : Node D) : Prop where
  admitted : node.store.readiness ≠ none
  marker : ∃ m, node'.store.readiness = some m ∧
    X.schema.viewDigest node'.store.data = m.viewDigest
  row : ∃ e : RefEntry D, e.digest = decision.digest ∧ e.digest = e.checksum X.schema ∧
    X.schema.viewDigest node.store.data = e.before ∧
    X.schema.replay node.store.data e.changeset = .ok node'.store.data

variable [DecidableEq D] {X : Engine D}

theorem readVerified_admitted (ok : node.readVerified X = .ok true) :
    node.store.readiness ≠ none := by
  unfold readVerified at ok
  split_ifs at ok
  · simp only [run_ok] at ok
    obtain ⟨shown, verified, ok⟩ := ok
    obtain ⟨view, rfl⟩ := Option.isSome_iff_exists.mp ok
    obtain ⟨m, ready, _⟩ := Store.verifiedView_some verified
    simp [ready]
  · simp at ok

end Node

namespace Call

/-- The four ways a call can treat read admission. -/
inductive Effect (X : Engine D) (node node' : Node D) : Call D → Prop
  | kept {c : Call D} : Node.Kept node node' → Effect X node node' c
  | cleared {c : Call D} : node'.store.readiness = none → Effect X node node' c
  | advanced {decision : RefEntry D} : ¬node'.Receiving →
      Node.Advanced X decision node node' → Effect X node node' (.apply decision)
  | confirmed {c : Call D} {cp : Checkpoint ℕ D} : c.confirmed = some cp → ¬node'.Receiving →
      node'.store.readiness = some cp → Effect X node node' c

variable [DecidableEq D] {X : Engine D} {node node' : Node D} {random : Bytes32}

theorem Outcome.effect {c : Call D} (outcome : c.Outcome X node random node') :
    Effect X node node' c := by
  cases outcome with
  | kept => exact .kept (.refl node)
  | journal _ _ _ _ readiness => exact .kept ⟨readiness, id⟩
  | applied decision idle found named before read replayed written keep =>
    rename_i verified data saved store
    cases verified with
    | false =>
      obtain rfl := Except.ok.inj keep
      exact .kept ⟨written.readiness, id⟩
    | true =>
      simp only [Node.keepVerified, if_true, Store.advanceReadiness, run_ok, Prod.exists] at keep
      obtain ⟨m, view, computed, rfl⟩ := keep
      refine .advanced idle.not_receiving ⟨Node.readVerified_admitted read,
        ⟨m, rfl, (Store.current_ok computed).2⟩, _, named, Store.bySequence_checksum found,
        before, ?_⟩
      exact replayed.trans (congrArg Except.ok written.data.symm)
  | confirmed _ names idle => exact .confirmed names idle.not_receiving rfl
  | published => exact .kept ⟨rfl, id⟩
  | snapshotStaged _ _ found unfinished =>
    exact .kept ⟨rfl, fun _ => .inl ⟨_, found, unfinished⟩⟩
  | materializedStaged _ _ found unfinished =>
    exact .kept ⟨rfl, fun _ => .inr ⟨_, found, unfinished⟩⟩
  | snapshotCancelled =>
    exact .kept ⟨rfl, fun receiving => .inr (receiving.resolve_left (by simp))⟩
  | materializedCancelled =>
    exact .kept ⟨rfl, fun receiving => .inl (receiving.resolve_right (by simp))⟩
  | _ => exact .cleared rfl

theorem run_effect {c : Call D} {reply : c.Reply} (ok : c.run X node random = .ok (reply, node')) :
    Effect X node node' c :=
  (run_outcome ok).effect

end Call

namespace Node

/-- A node that is receiving a transfer is not admitted for reads. -/
def Guarded (node : Node D) : Prop := node.Receiving → node.store.readiness = none

end Node

namespace Call.Effect

variable {X : Engine D} {node node' : Node D} {c : Call D}

theorem guarded (effect : Effect X node node' c) (guarded : node.Guarded) : node'.Guarded := by
  intro receiving
  cases effect with
  | kept kept => exact kept.readiness.trans (guarded (kept.receiving receiving))
  | cleared none => exact none
  | advanced closed _ => exact absurd receiving closed
  | confirmed _ closed _ => exact absurd receiving closed

/-- Only a confirmation opens a closed node for reads. -/
theorem stays_closed (effect : Effect X node node' c) (other : c.confirmed = none)
    (closed : node.store.readiness = none) : node'.store.readiness = none := by
  cases effect with
  | kept kept => exact kept.readiness.trans closed
  | cleared none => exact none
  | advanced _ advanced => exact absurd closed advanced.admitted
  | confirmed known => rw [other] at known; cases known

end Call.Effect

/-! Whatever calls reach a primary, its decided entries only grow, and each of them starts from
the view built by those before it. -/

variable (X : Engine D)

/-- The view that the entries build from an empty database. -/
def replayAll (entries : List (RefEntry D)) : Result View :=
  entries.foldlM (fun view e => X.schema.replay view e.changeset) View.empty

theorem replayAll_concat {entries : List (RefEntry D)} {e : RefEntry D} {view : View}
    (reached : replayAll X entries = .ok view) :
    replayAll X (entries ++ [e]) = X.schema.replay view e.changeset := by
  unfold replayAll at reached ⊢
  rw [List.foldlM_append, reached, ok_bind, List.foldlM_cons]
  exact bind_pure _

/-- Entries `1`, `2` and so on, each starting from the view before it. -/
structure Grounded (entries : List (RefEntry D)) : Prop where
  consecutive : Table.Consecutive Entry.sequence 0 entries
  checksum : ∀ e ∈ entries, e.digest = e.checksum X.schema
  replays : ∀ before e after, entries = before ++ e :: after →
    ∃ view, replayAll X before = .ok view ∧ X.schema.viewDigest view = e.before

/-- The digest of a view that some of the entries build, from the first on. -/
def Shown (entries : List (RefEntry D)) (digest : D) : Prop :=
  ∃ reached view, reached <+: entries ∧ replayAll X reached = .ok view ∧
    X.schema.viewDigest view = digest

variable {X}

theorem Shown.mono {entries more : List (RefEntry D)} {digest : D}
    (shown : Shown X entries digest) (grows : entries <+: more) : Shown X more digest := by
  obtain ⟨reached, view, inside, built, same⟩ := shown
  exact ⟨reached, view, inside.trans grows, built, same⟩

namespace Grounded

variable {entries : List (RefEntry D)} {e : RefEntry D} {view : View}

theorem nil : Grounded X [] := ⟨trivial, by simp, by simp⟩

theorem concat (grounded : Grounded X entries) (sequence : e.sequence = entries.length + 1)
    (digest : e.digest = e.checksum X.schema) (reached : replayAll X entries = .ok view)
    (before : X.schema.viewDigest view = e.before) : Grounded X (entries ++ [e]) where
  consecutive := Table.Consecutive.append.mpr
    ⟨grounded.consecutive, by rw [Nat.zero_add]; exact ⟨sequence, trivial⟩⟩
  checksum := by
    intro row mem
    rcases List.mem_append.mp mem with old | new
    · exact grounded.checksum row old
    · rw [List.mem_singleton.mp new]
      exact digest
  replays := by
    intro start row after split
    rcases List.eq_nil_or_concat after with rfl | ⟨rest, last, rfl⟩
    · obtain ⟨rfl, same⟩ := List.append_inj' split rfl
      obtain rfl := List.singleton_inj.mp same
      exact ⟨view, reached, before⟩
    · rw [List.concat_eq_append, ← List.cons_append, ← List.append_assoc] at split
      obtain ⟨inside, _⟩ := List.append_inj' split rfl
      exact grounded.replays start row rest inside

theorem shown_next (grounded : Grounded X entries) (injective : Function.Injective X.hash)
    (mem : e ∈ entries) {next : View} (before : X.schema.viewDigest view = e.before)
    (replayed : X.schema.replay view e.changeset = .ok next) :
    Shown X entries (X.schema.viewDigest next) := by
  obtain ⟨start, after, split⟩ := List.append_of_mem mem
  obtain ⟨reached, built, same⟩ := grounded.replays start e after split
  have views : Hashed.view reached = Hashed.view view := injective (same.trans before.symm)
  obtain rfl := Hashed.view.inj views
  refine ⟨start ++ [e], next, ?_, ?_, rfl⟩
  · exact ⟨after, by rw [split, List.append_assoc, List.singleton_append]⟩
  · rw [replayAll_concat X built]
    exact replayed

end Grounded

theorem Store.journalPage_mem {C V I : Type} [DecidableEq I] [DecidableEq D] {S : Schema C V I D}
    {identity : Identity I} {st : Store C V I D} {head : JournalHead I D} {after limit : ℕ}
    {page : JournalPage C I D} {e : Entry C I D}
    (ok : st.journalPage S identity head after limit = .ok page) (mem : e ∈ page.entries) :
    e ∈ st.log := by
  have read : ∀ (rows : List (Entry C I D)) (bytes : ℕ) (entries : List (Entry C I D)),
      Store.pageEntries S bytes rows = .ok entries → ∀ e ∈ entries, e ∈ rows := by
    intro rows
    induction rows with
    | nil =>
      intro bytes entries ok
      obtain rfl := Except.ok.inj ok
      exact fun _ mem => mem
    | cons row rows ih =>
      intro bytes entries ok e mem
      simp only [Store.pageEntries, bind_eq_ok] at ok
      obtain ⟨_, _, ok⟩ := ok
      split_ifs at ok
      · obtain rfl := Except.ok.inj ok
        simp at mem
      · simp only [run_ok] at ok
        obtain ⟨rest, found, rfl⟩ := ok
        rcases List.mem_cons.mp mem with rfl | later
        · exact List.mem_cons_self
        · exact List.mem_cons_of_mem _ (ih _ rest found e later)
  simp only [Store.journalPage, run_ok] at ok
  obtain ⟨_, _, _, _, entries, found, _, rfl⟩ := ok
  exact List.mem_of_mem_filter (List.mem_of_mem_take (read _ _ _ found e mem))

namespace Node

variable {identity : Identity ℕ}

/-- A primary that has executed its whole history itself. -/
structure Leads (p : Node D) (h : History X.schema identity) (tail : Option (RefEntry D)) :
    Prop where
  sound : p.Sound h tail
  role : p.role = .primary
  origin : h.origin.sequence = 0
  view : replayAll X h.entries = .ok p.store.data
  grounded : Grounded X h.entries

variable {p p' : Node D} {h h' : History X.schema identity} {tail tail' : Option (RefEntry D)}
  {e : RefEntry D} {random : Bytes32}

theorem Sound.decidedEntries_eq (sound : p.Sound h tail) : p.decidedEntries =
    h.entries ++ (tail.toList.filter fun e => e.state ≠ .prepared).map fun e =>
      e.withState .applied := by
  have kept : (h.entries.filter fun e => e.state ≠ .prepared) = h.entries := by
    refine List.filter_eq_self.mpr fun e mem => ?_
    simp [h.applied e mem]
  have same : h.entries.map (fun e => e.withState .applied) = h.entries := by
    refine (List.map_congr_left fun e mem => ?_).trans (List.map_id _)
    rw [← h.applied e mem]
    rfl
  rw [decidedEntries, sound.store.log_eq, List.filter_append, List.map_append, kept, same]

theorem mem_decidedEntries (mem : e ∈ p.store.log) (decided : e.state ≠ .prepared) :
    e.withState .applied ∈ p.decidedEntries :=
  List.mem_map_of_mem (List.mem_filter.mpr ⟨mem, decide_eq_true decided⟩)

namespace Leads

variable (leads : p.Leads h tail)
include leads

theorem entries_decided : h.entries <+: p.decidedEntries := by
  rw [leads.sound.decidedEntries_eq]
  exact List.prefix_append _ _

theorem length_eq : h.length = h.entries.length := by
  rw [History.length, leads.origin, Nat.zero_add]

omit leads in
theorem grounded_next (leads : p.Leads h (some e)) :
    Grounded X (h.entries ++ [e.withState .applied]) := by
  have linked := (leads.sound.store.next e rfl).linked
  refine leads.grounded.concat ?_ linked.digest_eq leads.view
    (leads.sound.store.data.trans linked.before_eq.symm)
  rw [← leads.length_eq, ← h.anchor_sequence]
  exact linked.sequence_eq

theorem decided_grounded : Grounded X p.decidedEntries := by
  rw [leads.sound.decidedEntries_eq]
  cases tail with
  | none => simpa using leads.grounded
  | some e =>
    by_cases prepared : e.state = .prepared
    · simpa [prepared] using leads.grounded
    · simpa [prepared] using leads.grounded_next

theorem same (sound : p'.Sound h tail) (role : p'.role = p.role)
    (data : p'.store.data = p.store.data) (log : p'.store.log = p.store.log) :
    ∃ (h' : History X.schema identity) (tail' : Option (RefEntry D)),
      p'.Leads h' tail' ∧ p.decidedEntries <+: p'.decidedEntries := by
  refine ⟨h, tail, ⟨sound, role.trans leads.role, leads.origin, ?_, leads.grounded⟩, ?_⟩
  · rw [data]
    exact leads.view
  · have kept : p'.decidedEntries = p.decidedEntries := by rw [decidedEntries, decidedEntries, log]
    exact kept ▸ List.prefix_refl _

theorem unchanged :
    ∃ (h' : History X.schema identity) (tail' : Option (RefEntry D)),
      p.Leads h' tail' ∧ p.decidedEntries <+: p.decidedEntries :=
  ⟨h, tail, leads, List.prefix_refl _⟩

variable [DecidableEq D]

theorem run {c : Call D} {reply : c.Reply} (ok : c.run X p random = .ok (reply, p')) :
    ∃ (h' : History X.schema identity) (tail' : Option (RefEntry D)),
      p'.Leads h' tail' ∧ p.decidedEntries <+: p'.decidedEntries := by
  have sound := leads.sound
  have role := leads.role
  cases c with
  | prepare batch =>
    obtain ⟨_, _, _, ⟨_, rfl⟩ | ⟨rfl, _, state, next, rfl⟩⟩ := sound.prepare_ok ok
    · exact leads.unchanged
    · have grown : (p.setLog (p.store.log ++ [reply]) random).Sound h (some reply) :=
        sound.append next (by rw [state]; simp)
      refine ⟨h, _, { leads with sound := grown, role := role }, ?_⟩
      rw [grown.decidedEntries_eq, sound.decidedEntries_eq]
      simp [state]
  | decide id =>
    obtain ⟨_, _, ⟨_, _, rfl⟩ | ⟨e, rfl, prepared, rfl, rfl⟩⟩ := sound.decide_ok ok
    · exact leads.unchanged
    · have decided : (p.setLog (h.entries ++ [e.withState .decided]) random).Sound h
          (some (e.withState .decided)) := sound.restate (by simp)
      refine ⟨h, _, { leads with sound := decided, role := role }, ?_⟩
      rw [decided.decidedEntries_eq, sound.decidedEntries_eq]
      simp [prepared]
  | apply decision =>
    obtain ⟨_, _, _, _, _, e, _, _, _, ⟨_, rfl⟩ | ⟨rfl, allowed, view, replayed, after, rfl⟩⟩ :=
      sound.apply_ok ok
    · exact leads.unchanged
    · have decided : e.state = .decided := allowed.resolve_left (by rw [role]; simp)
      have finished : ∀ readiness, (p.finishTail X h e view readiness random).Sound
          (h.push e (sound.store.next e rfl)) none := sound.finish after
      refine ⟨_, none, ⟨finished _, role, leads.origin, ?_, leads.grounded_next⟩, ?_⟩
      · rw [History.push_entries, replayAll_concat X leads.view]
        exact replayed
      · rw [(finished _).decidedEntries_eq, sound.decidedEntries_eq]
        simp [decided]
  | abort id =>
    obtain ⟨_, rfl⟩ | ⟨e, rfl, prepared, _, rfl⟩ := sound.abort_ok ok
    · exact leads.unchanged
    · have removed : (p.setLog h.entries random).Sound h none := sound.remove
      refine ⟨h, none, { leads with sound := removed, role := role }, ?_⟩
      rw [removed.decidedEntries_eq, sound.decidedEntries_eq]
      simp [prepared]
  | captureBase proposal =>
    obtain ⟨_, _, ⟨_, rfl⟩ | ⟨vacant, _, idle, checkpoint, _, _, rfl⟩⟩ := sound.captureBase_ok ok
    · exact leads.unchanged
    · exact leads.same (sound.capture vacant idle checkpoint) rfl rfl rfl
  | confirmBase proposal =>
    obtain ⟨_, old, published, rfl, _, rfl⟩ := sound.confirmBase_ok ok
    exact leads.same (sound.setPhase published) rfl rfl rfl
  | activatePublishedBase proposal =>
    obtain ⟨bound, published, ⟨_, rfl⟩ | ⟨_, _, rfl⟩⟩ := sound.activate_ok ok
    · exact leads.unchanged
    · exact leads.same (sound.rebase published bound) rfl rfl rfl
  | stage | confirmCheckpoint | confirmGeneration | quarantine | install | snapshotBegin
  | snapshotChunk | snapshotFinish | snapshotCancel | materializedBegin | materializedChunk
  | materializedFinish | materializedCancel =>
    -- a primary refuses what is for secondaries
    simp [Call.run, Node.stage, Node.confirmGeneration, Node.confirmCheckpoint, Node.quarantine,
      Node.install, Node.snapshotBegin, Node.snapshotChunk, Node.snapshotFinish,
      Node.snapshotCancel, Node.materializedBegin, Node.materializedChunk,
      Node.materializedFinish, Node.materializedCancel, role, bind_eq_ok] at ok
  | _ =>
    obtain rfl := (reading_ok ok).2
    exact leads.unchanged

/-- The checkpoint of a primary is that of a view it has committed to. -/
theorem checkpoint_shown {cp : Checkpoint ℕ D} (ok : p.checkpoint X = .ok cp) :
    Shown X p.decidedEntries cp.viewDigest := by
  simp only [Node.checkpoint, run_ok, Prod.exists] at ok
  obtain ⟨_, _, computed, rfl⟩ := ok
  exact ⟨h.entries, p.store.data, leads.entries_decided, leads.view,
    (Store.current_ok computed).2⟩

theorem decide_committed {id : String} (ok : p.decide X id random = .ok (e, p')) :
    ∃ row ∈ p'.decidedEntries, row.digest = e.digest := by
  obtain ⟨_, _, ⟨mem, decided, rfl⟩ | ⟨e', rfl, _, rfl, rfl⟩⟩ := leads.sound.decide_ok ok
  · exact ⟨_, mem_decidedEntries mem decided, rfl⟩
  · refine ⟨_, mem_decidedEntries (e := e'.withState .decided) ?_ (by simp [Entry.withState]), rfl⟩
    exact List.mem_append_right _ List.mem_cons_self

end Leads

end Node

end TerrapiVault.Replication
