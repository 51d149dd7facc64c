import TerrapiVault.Replication.PairSteps

/-! `recover` on a pair in any protocol state: the comparison finds the applied
prefix, at most one entry is left to resolve, and the only possible failure is a
lost reply. -/
namespace TerrapiVault.Replication.Pair

open CrashLogic Protocol

variable {D : Type}

/-! The comparison. -/

/-- Rows with the same digests, of which exactly those up to `applied` are applied on
both sides. -/
def Aligned (applied : ℕ) :
    ℕ → List (RefEntry D) → List (RefEntry D) → Prop
  | cursor, x :: xs, y :: ys => x.sequence = cursor + 1 ∧ x.digest = y.digest ∧
      ((x.state = .applied ∧ y.state = .applied) ↔ cursor < applied) ∧
      Aligned applied (cursor + 1) xs ys
  | _, [], _ => True
  | _, _ :: _, [] => True

namespace Aligned

variable {applied cursor : ℕ} {xs ys : List (RefEntry D)}

theorem compare [DecidableEq D] (h : Aligned applied cursor xs ys) :
    compareEntries (min cursor applied) (xs.zip ys) =
      .ok (min (cursor + min xs.length ys.length) applied) := by
  induction xs generalizing cursor ys with
  | nil => simp [compareEntries]
  | cons x xs ih =>
    cases ys with
    | nil => simp [compareEntries]
    | cons y ys =>
      obtain ⟨sequence, digest, state, rest⟩ := h
      have grown : (if min cursor applied = x.sequence - 1 ∧ x.state = .applied ∧
          y.state = .applied then min cursor applied + 1 else min cursor applied) =
          min (cursor + 1) applied := by
        by_cases inside : cursor < applied
        · rw [if_pos ⟨by omega, state.mpr inside⟩]
          omega
        · rw [if_neg fun both => inside (state.mp both.2)]
          omega
      rw [List.zip_cons_cons, compareEntries, ensure_of digest, ok_bind, grown, ih rest,
        List.length_cons, List.length_cons]
      have count : cursor + 1 + min xs.length ys.length =
          cursor + min (xs.length + 1) (ys.length + 1) := by omega
      rw [count]

theorem take (h : Aligned applied cursor xs ys) (k j : ℕ) :
    Aligned applied cursor (xs.take k) (ys.take j) := by
  induction xs generalizing cursor ys k j with
  | nil =>
    rw [List.take_nil]
    trivial
  | cons x xs ih =>
    cases k with
    | zero => trivial
    | succ k =>
      cases ys with
      | nil => simp [Aligned]
      | cons y ys =>
        cases j with
        | zero => simp [Aligned]
        | succ j => exact ⟨h.1, h.2.1, h.2.2.1, ih h.2.2.2 k j⟩

theorem drop (h : Aligned applied cursor xs ys) (n : ℕ) :
    Aligned applied (cursor + n) (xs.drop n) (ys.drop n) := by
  induction n generalizing cursor xs ys with
  | zero => exact h
  | succ n ih =>
    cases xs with
    | nil => simp [Aligned]
    | cons x xs =>
      cases ys with
      | nil => cases dropped : (x :: xs).drop (n + 1) <;> simp [Aligned]
      | cons y ys =>
        have rest := ih h.2.2.2
        rwa [Nat.add_right_comm] at rest

theorem append {entries : List (RefEntry D)}
    (consecutive : Table.Consecutive Entry.sequence cursor entries)
    (all : ∀ e ∈ entries, e.state = .applied) (length : cursor + entries.length = applied)
    (rest : Aligned applied applied xs ys) :
    Aligned applied cursor (entries ++ xs) (entries ++ ys) := by
  induction entries generalizing cursor with
  | nil =>
    obtain rfl : cursor = applied := by simpa using length
    exact rest
  | cons e entries ih =>
    have state := all e List.mem_cons_self
    simp only [List.length_cons] at length
    refine ⟨consecutive.1, rfl, ⟨fun _ => by omega, fun _ => ⟨state, state⟩⟩, ?_⟩
    exact ih consecutive.2 (fun e' mem => all e' (List.mem_cons_of_mem _ mem)) (by omega)

end Aligned

variable {X : Engine D} {identity : Identity ℕ} {a : Position X identity} {p s : Node D}

section

variable (agree : Agree a p s)
include agree

theorem aligned : Aligned a.history.length 0 p.store.log s.store.log := by
  have origin := agree.primaryOrigin
  have consecutive := a.history.chained.consecutive
  rw [origin] at consecutive
  have length : 0 + a.history.entries.length = a.history.length := by
    rw [History.length, origin]
  rw [agree.primary.store.log_eq, agree.secondary.store.log_eq]
  have common : ∀ xs ys : List (RefEntry D),
      Aligned a.history.length a.history.length xs ys →
      Aligned a.history.length 0 (a.history.entries ++ xs) (a.history.entries ++ ys) :=
    fun xs ys => Aligned.append consecutive a.history.applied length
  obtain ⟨h, phase, stage⟩ := a
  cases phase with
  | idle => exact common [] [] trivial
  | prepared e next => exact common [e.withState .prepared] [] trivial
  | staged e next =>
    have sequence := next.linked.sequence_eq
    rw [h.anchor_sequence] at sequence
    refine common [e.withState .prepared] [e.withState .prepared] ⟨sequence, rfl, ?_, trivial⟩
    simp [Entry.withState]
  | decided e next =>
    have sequence := next.linked.sequence_eq
    rw [h.anchor_sequence] at sequence
    refine common [e.withState .decided] [e.withState .prepared] ⟨sequence, rfl, ?_, trivial⟩
    simp [Entry.withState]
  | landed e next =>
    have sequence := next.linked.sequence_eq
    rw [h.anchor_sequence] at sequence
    have pushed := common [e.withState .decided] [e.withState .applied]
      ⟨sequence, rfl, by simp [Entry.withState], trivial⟩
    simpa [Phase.secondary, Phase.secondaryTail, Phase.primaryTail] using pushed

theorem history_le_secondary : a.history.length ≤ s.store.log.length := by
  have grows := a.history_grows.length_le
  have total := agree.secondaryLength
  omega

theorem secondary_le_primary : s.store.log.length ≤ p.store.log.length := by
  rw [agree.primaryLength, agree.secondaryLength]
  obtain ⟨h, phase, stage⟩ := a
  cases phase <;> simp [Phase.secondary, Phase.secondaryTail, Phase.primaryTail]

theorem floors_le : max (baseFloor p.store.base) (baseFloor s.store.base) ≤ s.store.log.length := by
  have low := agree.primary.store.base.le_length
  have high := agree.secondary.store.base.le_length
  have grows := history_le_secondary agree
  have total := agree.secondaryLength
  omega

theorem checkProfile_eq : checkProfile (p.currentSummary X) (s.currentSummary X) = .ok () := by
  have cipher := X.cipherVersion_ne
  have shorter : (s.currentSummary X).head.length ≤ (p.currentSummary X).head.length :=
    secondary_le_primary agree
  rw [checkProfile, ensure_of ⟨rfl, rfl, rfl, rfl, cipher, cipher⟩, ok_bind,
    ensure_of shorter, ok_bind]
  exact ensure_of (floors_le agree)

/-- A base on the secondary is the primary's published checkpoint. -/
theorem secondary_base_published {base : Checkpoint ℕ D} (stored : s.store.base = some base) :
    baseFloor p.store.base ≤ base.sequence ∧ base.sequence ≤ a.history.length ∧
      base = (a.history.upTo base.sequence).checkpoint := by
  have publication := agree.primary.publication
  unfold Node.PublicationOf at publication
  rw [agree.paired.primaryRecord] at publication
  rw [agree.paired.secondaryBase] at stored
  obtain ⟨h, phase, stage⟩ := a
  cases stage with
  | following r =>
    obtain rfl := Option.some.inj stored
    exact ⟨publication.1, publication.2.1, publication.2.2.1⟩
  | active r =>
    obtain rfl := Option.some.inj stored
    exact ⟨publication.1, publication.2.1, publication.2.2.1⟩
  | _ => simp [Publication.Stage.secondaryBase] at stored

/-- A base of the primary is a checkpoint of the secondary. -/
theorem primary_base_reached [DecidableEq D] {base : Checkpoint ℕ D}
    (stored : p.store.base = some base) (above : baseFloor s.store.base ≤ base.sequence) :
    s.checkpointAt X base.sequence = .ok base := by
  have own := agree.primary.store.base
  rw [stored] at own
  have within : base.sequence ≤ a.phase.secondary.length :=
    Nat.le_trans own.2.1 a.history_grows.length_le
  rw [agree.secondary.checkpointAt_eq above within, a.history_grows.upTo_eq own.2.1, ← own.2.2]

end

/-- No entry is on its way. -/
def Resolved (intent : Intent) (a : Position X identity) (pair : Pair D) :
    Prop :=
  ∃ h stage p s, (Steps intent a ⟨h, .idle, stage⟩ ∧ Agree ⟨h, .idle, stage⟩ p s) ∧
    Here p s pair

/-- Moreover the secondary has been admitted for reads. -/
def Recovered (intent : Intent) (a : Position X identity) (pair : Pair D) :
    Prop :=
  ∃ h stage p s, (Steps intent a ⟨h, .idle, stage⟩ ∧ Agree ⟨h, .idle, stage⟩ p s ∧
    s.store.readiness = some h.checkpoint) ∧ Here p s pair

theorem floors_le_history (agree : Agree a p s) :
    max (baseFloor p.store.base) (baseFloor s.store.base) ≤ a.history.length := by
  refine Nat.max_le.mpr ⟨agree.primary.store.base.le_length, ?_⟩
  cases stored : s.store.base with
  | none => simp
  | some base => exact (secondary_base_published agree stored).2.1

section Spec

variable [DecidableEq D] {allow : Choice D → Prop} {intent : Intent}
  {a b : Position X identity} {refusal : Fault → Pair D → Prop} {p s : Node D}

theorem summary_secondary (agree : Agree b p s) (random : Bytes32) :
    Call.summary.run X s random = .ok (s.currentSummary X, s) :=
  Call.reading_of (agree.secondary.currentSummary_eq agree.secondaryOrigin)

theorem head_primary (agree : Agree b p s) (random : Bytes32) :
    Call.journalHead.run X p random = .ok (p.currentHead, p) :=
  Call.reading_of (agree.primary.currentHead_eq agree.primaryOrigin)

theorem checkPair_eq (agree : Agree b p s) :
    checkPair (p.currentSummary X) (s.currentSummary X) = .ok () := by
  have roles : p.role = .primary ∧ s.role = .secondary ∧
      (p.currentSummary X).membership = (s.currentSummary X).membership ∧
      p.identity = s.identity :=
    ⟨agree.paired.primaryRole, agree.paired.secondaryRole, rfl,
      agree.primary.identity_eq.trans agree.secondary.identity_eq.symm⟩
  have contract : (p.currentSummary X).schemaContract = (s.currentSummary X).schemaContract := rfl
  rw [checkPair, ensure_of contract, ok_bind]
  exact ensure_of roles

variable (alone : ∀ choice, allow choice → choice.others = [])
include alone

variable (steps : Steps intent a b)
include steps

theorem checkPeer_spec (agree : Agree b p s) :
    Triple allow (Crashed allow intent a) (Here p s) (checkPeer X)
      (fun r pair => r = () ∧ Here p s pair) (Failed allow intent a refusal) := by
  have required : ∀ random, Call.requiredRecoveryPeer.run X p random = .ok (none, p) :=
    fun _ => Call.reading_of agree.primary.requiredRecoveryPeer_eq
  refine .known (primary_read alone steps agree required) ?_
  exact Triple.pure _ fun _ here => ⟨rfl, here⟩

theorem checkBases_spec (agree : Agree b p s) :
    Triple allow (Crashed allow intent a) (Here p s)
      (checkBases X p.currentHead s.currentHead) (fun r pair => r = () ∧ Here p s pair)
      (Failed allow intent a refusal) := by
  unfold checkBases
  by_cases ahead : p.currentHead.base.isSome = true ∧ (s.currentHead.base.isNone = true ∨
      baseFloor s.currentHead.base < baseFloor p.currentHead.base)
  · rw [if_pos ahead]
    cases stored : p.currentHead.base with
    | none => simp [stored] at ahead
    | some base =>
      rw [stored] at ahead
      have above : baseFloor s.store.base ≤ base.sequence := by
        rcases ahead.2 with vacant | less
        · rw [show s.store.base = none from Option.isNone_iff_eq_none.mp vacant]
          simp
        · exact Nat.le_of_lt less
      have actual := primary_base_reached agree stored above
      refine .known (secondary_read alone steps agree fun _ => Call.reading_of actual) ?_
      exact Triple.checked (ensure_of rfl)
  · rw [if_neg ahead]
    cases stored : s.currentHead.base with
    | none => exact Triple.pure _ fun _ here => ⟨rfl, here⟩
    | some base =>
      obtain ⟨above, within, same⟩ := secondary_base_published agree stored
      have short : base.sequence ≤ s.currentHead.length :=
        Nat.le_trans within (history_le_secondary agree)
      have actual : p.checkpointAt X base.sequence = .ok base := by
        rw [agree.primary.checkpointAt_eq above within, ← same]
      dsimp only
      rw [if_pos short]
      refine .known (primary_read alone steps agree fun _ => Call.reading_of actual) ?_
      exact Triple.checked (ensure_of rfl)

theorem unchangedHeads_spec (agree : Agree b p s) :
    Triple allow (Crashed allow intent a) (Here p s)
      (unchangedHeads X p.currentHead s.currentHead) (fun r pair => r = true ∧ Here p s pair)
      (Failed allow intent a refusal) := by
  refine .known (primary_read alone steps agree (head_primary agree)) ?_
  rw [if_pos rfl]
  refine .known (secondary_read alone steps agree (summary_secondary agree)) ?_
  exact Triple.pure _ fun _ here => ⟨by simp [Node.currentSummary], here⟩

theorem comparePages_spec (agree : Agree b p s) (fuel : ℕ) {cursor : ℕ}
    (low : max (baseFloor p.store.base) (baseFloor s.store.base) ≤ cursor)
    (high : cursor ≤ s.store.log.length) (enough : s.store.log.length ≤ cursor + fuel) :
    Triple allow (Crashed allow intent a) (Here p s)
      (comparePages X p.currentHead s.currentHead fuel cursor (min cursor b.history.length))
      (fun r pair => r = b.history.length ∧ Here p s pair)
      (Failed allow intent a refusal) := by
  have shorter := secondary_le_primary agree
  have longer := history_le_secondary agree
  have atop : ∀ {cursor}, s.store.log.length ≤ cursor →
      min cursor b.history.length = b.history.length := by
    intro cursor beyond
    omega
  induction fuel generalizing cursor with
  | zero =>
    have last : ¬cursor < s.currentHead.length := by
      simp only [Node.currentHead]
      omega
    rw [comparePages, if_neg last, atop (by omega)]
    exact Triple.pure _ fun _ here => ⟨rfl, here⟩
  | succ fuel ih =>
    rw [comparePages]
    by_cases more : cursor < s.store.log.length
    · have positive : 0 < min (s.store.log.length - cursor) maxPageEntries := by
        simp only [maxPageEntries]
        omega
      obtain ⟨k, first, pageP, validP⟩ := agree.primary.page_eq agree.primaryOrigin positive
        (Nat.min_le_right _ _) (by omega) (by omega : cursor ≤ p.store.log.length)
      obtain ⟨j, second, pageS, validS⟩ := agree.secondary.page_eq agree.secondaryOrigin positive
        (Nat.min_le_right _ _) (by omega) high
      have equal := (((aligned agree).drop cursor).take k j)
      rw [Nat.zero_add] at equal
      have compared := equal.compare
      have here : cursor < s.currentHead.length := more
      rw [if_pos here]
      refine .known (primary_read alone steps agree fun _ => Call.reading_of pageP) ?_
      refine .known (secondary_read alone steps agree fun _ => Call.reading_of pageS) ?_
      refine .known (.checked validP) ?_
      refine .known (.checked validS) ?_
      refine .known (.checked compared) ?_
      refine ih ?_ ?_ ?_
      · omega
      · simp only [List.length_take, List.length_drop]
        omega
      · have progress := first (by omega)
        have progress' := second more
        simp only [List.length_take, List.length_drop]
        omega
    · have last : ¬cursor < s.currentHead.length := more
      rw [if_neg last, atop (by omega)]
      exact Triple.pure _ fun _ here => ⟨rfl, here⟩

/-- The one entry that can be on its way is removed or carried to its end. -/
theorem resolveEntries_spec (agree : Agree b p s) {t : RefEntry D}
    (tail : b.phase.primaryTail = some t) (cursor completed : ℕ) :
    Triple allow (Crashed allow intent a) (Here p s) (resolveEntries X cursor completed [t])
      (fun r pair => r.1 = t.sequence ∧ Resolved intent a pair)
      (Failed allow intent a refusal) := by
  obtain ⟨h, phase, stage⟩ := b
  cases phase with
  | idle => simp [Phase.primaryTail] at tail
  | prepared e next =>
    obtain rfl := Option.some.inj tail
    have pending : (e.withState .prepared).state = .prepared := rfl
    rw [resolveEntries, if_pos pending]
    refine .known (secondary_read alone steps agree fun _ => agree.withdrawn) ?_
    refine .known (primary_step alone steps agree (fun _ => agree.abort) (.single .abort)) ?_
    refine .any fun p' => .given fun agree => ?_
    exact Triple.pure _ fun _ here =>
      ⟨rfl, h, stage, p', s, ⟨steps.tail .abort, agree⟩, here⟩
  | staged e next =>
    obtain rfl := Option.some.inj tail
    have pending : (e.withState .prepared).state = .prepared := rfl
    rw [resolveEntries, if_pos pending]
    refine .known (secondary_step alone steps agree (fun _ => agree.withdraw)
      (.single .withdraw)) ?_
    refine .any fun s' => .given fun agree => ?_
    have steps := steps.tail .withdraw
    refine .known (primary_step alone steps agree (fun _ => agree.abort) (.single .abort)) ?_
    refine .any fun p' => .given fun agree => ?_
    exact Triple.pure _ fun _ here =>
      ⟨rfl, h, stage, p', s', ⟨steps.tail .abort, agree⟩, here⟩
  | decided e next =>
    obtain rfl := Option.some.inj tail
    have mem : e.withState .prepared ∈ s.store.log :=
      agree.secondary.store.mem_log.mpr (.inr rfl)
    rw [resolveEntries, if_neg (by simp [Entry.withState])]
    refine .known (secondary_read alone steps agree fun _ => agree.secondary.stage_again
      agree.paired.secondaryRole agree.paired.secondaryIdle mem) ?_
    refine .known (secondary_step alone steps agree (fun _ => agree.land) (.single .land)) ?_
    refine .any fun s' => .given fun agree => ?_
    have steps := steps.tail .land
    refine .known (primary_step alone steps agree (fun _ => agree.finish) (.single .finish)) ?_
    refine .any fun p' => .given fun agree => ?_
    exact Triple.pure _ fun _ here =>
      ⟨rfl, h.push e next, stage, p', s', ⟨steps.tail .finish, agree⟩, here⟩
  | landed e next =>
    obtain rfl := Option.some.inj tail
    have applied : e.withState .applied ∈ (h.push e next).entries := by simp
    have mem : e.withState .applied ∈ s.store.log :=
      agree.secondary.store.mem_log.mpr (.inl applied)
    rw [resolveEntries, if_neg (by simp [Entry.withState])]
    refine .known (secondary_read alone steps agree fun _ => agree.secondary.stage_again
      agree.paired.secondaryRole agree.paired.secondaryIdle mem) ?_
    refine .known (secondary_read alone steps agree fun _ => agree.secondary.apply_again
      agree.paired.secondaryIdle applied (by simp)) ?_
    refine .known (primary_step alone steps agree (fun _ => agree.finish) (.single .finish)) ?_
    refine .any fun p' => .given fun agree => ?_
    exact Triple.pure _ fun _ here =>
      ⟨rfl, h.push e next, stage, p', s, ⟨steps.tail .finish, agree⟩, here⟩

omit alone in
omit steps in
theorem resolvePages_done {length cursor completed : ℕ} (fuel : ℕ) (done : length ≤ cursor) :
    resolvePages X length fuel cursor completed = pure completed := by
  have last : ¬cursor < length := by omega
  cases fuel <;> rw [resolvePages, if_neg last]

theorem resolvePages_spec (agree : Agree b p s) :
    Triple allow (Crashed allow intent a) (Here p s)
      (resolvePages X p.store.log.length p.store.log.length b.history.length 0)
      (fun _ => Resolved intent a) (Failed allow intent a refusal) := by
  have length := agree.primaryLength
  cases tail : b.phase.primaryTail with
  | none =>
    obtain ⟨h, phase, stage⟩ := b
    cases phase with
    | idle =>
      rw [resolvePages_done _ (by simp [length, tail])]
      exact Triple.pure _ fun _ here => ⟨h, stage, p, s, ⟨steps, agree⟩, here⟩
    | _ => simp [Phase.primaryTail] at tail
  | some t =>
    have one : p.store.log.length = b.history.length + 1 := by simp [length, tail]
    obtain ⟨k, first, page, -⟩ := agree.primary.page_eq agree.primaryOrigin
      (by decide : 0 < maxPageEntries) (Nat.le_refl _) agree.primary.store.base.le_length
      (by omega : b.history.length ≤ p.store.log.length)
    have entries : (p.store.log.drop b.history.length).take k = [t] := by
      have progress := first (by omega)
      have same : b.history.entries.length = b.history.length := by
        rw [History.length, agree.primaryOrigin, Nat.zero_add]
      rw [agree.primary.store.log_eq, tail, ← same, List.drop_left]
      exact List.take_of_length_le progress
    have sequence : t.sequence = b.history.length + 1 := by
      rw [(agree.primary.store.next t tail).linked.sequence_eq, History.anchor_sequence]
    rw [entries] at page
    rw [one, resolvePages, if_pos (by omega)]
    refine .known (primary_read alone steps agree (head_primary agree)) ?_
    refine .known (primary_read alone steps agree fun _ => Call.reading_of page) ?_
    refine .bind (resolveEntries_spec alone steps agree tail _ _) fun r => ?_
    obtain ⟨cursor, completed⟩ := r
    refine .given fun reached => ?_
    have done : b.history.length + 1 ≤ cursor :=
      Nat.le_of_eq (sequence.symm.trans (Eq.symm reached))
    dsimp only
    rw [resolvePages_done _ done]
    exact Triple.pure _ fun _ resolved => resolved

omit steps in
theorem recover_spec :
    Triple allow (Crashed allow intent a) (Since intent a) (recover X)
      (fun _ => Recovered intent a) (Failed allow intent a refusal) := by
  refine fixPrimary fun p _ => ?_
  refine .known (primary_wait alone fun b s random agree =>
    Call.reading_of (agree.primary.currentSummary_eq agree.primaryOrigin)) ?_
  refine .bind (secondary_first alone (fun s => s.currentSummary X)
    fun b s random agree => summary_secondary agree random) fun ss => ?_
  refine .any fun s => .given fun ⟨⟨b, steps, agree⟩, known⟩ => ?_
  subst known
  refine .known (.checked (checkPair_eq agree)) ?_
  refine .known (checkPeer_spec alone steps agree) ?_
  refine .known (.checked (checkProfile_eq agree)) ?_
  refine .known (checkBases_spec alone steps agree) ?_
  have compared : Triple _ _ _ _ _ (Failed allow intent a refusal) :=
    comparePages_spec alone steps agree s.store.log.length
    (Nat.le_refl (max (baseFloor p.store.base) (baseFloor s.store.base))) (floors_le agree)
    (by omega)
  rw [Nat.min_eq_left (floors_le_history agree)] at compared
  refine .known compared ?_
  refine .known (unchangedHeads_spec alone steps agree) ?_
  refine .known (.checked (ensure_of rfl)) ?_
  refine .bind (resolvePages_spec alone steps agree) fun completed => ?_
  refine .any fun h => .any fun stage => .any fun p' => .any fun s' => .given fun ⟨steps, agree⟩ => ?_
  refine .known (primary_read alone steps agree fun _ =>
    Call.reading_of (agree.primary.checkpoint_eq rfl)) ?_
  refine .bind (secondary_try alone steps agree (fun _ s'' =>
      s'' = { s' with store := { s'.store with readiness := some h.checkpoint } })
    ?_ ?_) fun u => ?_
  · intro random r s'' ok
    rw [show Call.run X s' random (.confirmCheckpoint h.checkpoint) = _ from
      agree.secondary.confirmCheckpoint_eq agree.paired.secondaryRole
        agree.paired.secondaryIdle] at ok
    obtain ⟨-, rfl⟩ := Prod.mk.inj (Except.ok.inj ok)
    exact ⟨rfl, _, .refl, agree.confirm _⟩
  · intro random e failed
    rw [show Call.run X s' random (.confirmCheckpoint h.checkpoint) = _ from
      agree.secondary.confirmCheckpoint_eq agree.paired.secondaryRole
        agree.paired.secondaryIdle] at failed
    simp at failed
  · refine .any fun s'' => .given fun confirmed => ?_
    subst confirmed
    exact Triple.pure _ fun _ here =>
      ⟨h, stage, p', _, ⟨steps, agree.confirm _, rfl⟩, here⟩

omit steps in
/-- What follows a recovery starts from a resolved pair. -/
theorem recover_then {α : Type} {f : ℕ → Program D α} {post : α → Pair D → Prop}
    (next : ∀ n h stage p s, Steps intent a ⟨h, .idle, stage⟩ → Agree ⟨h, .idle, stage⟩ p s →
      Triple allow (Crashed allow intent a) (Here p s) (f n) post (Failed allow intent a refusal)) :
    Triple allow (Crashed allow intent a) (Since intent a) (recover X >>= f) post
      (Failed allow intent a refusal) :=
  .bind (recover_spec alone) fun n => .any fun h => .any fun stage => .any fun p => .any fun s =>
    .given fun ⟨steps, agree, _⟩ => next n h stage p s steps agree

omit alone in
theorem Since.after {pair : Pair D} (since : Since .resolve b pair) : Since intent a pair := by
  obtain ⟨c, more, holds⟩ := since
  exact ⟨c, steps.trans more.unsolicited, holds⟩

omit alone in
theorem within {α : Type} {m : Program D α} {pre : Pair D → Prop} {post : α → Pair D → Prop}
    (h : Triple allow (Crashed allow .resolve b) pre m post (Failed allow .resolve b refusal)) :
    Triple allow (Crashed allow intent a) pre m post (Failed allow intent a refusal) := by
  refine h.conseq (fun _ met => met) ?_ (fun _ _ met => met) ?_
  · intro pair crashed
    exact ⟨crashed.1, crashed.2.after steps⟩
  · intro e pair failed
    exact ⟨failed.1, failed.2.after steps⟩

theorem recover_within (agree : Agree b p s) :
    Triple allow (Crashed allow intent a) (Here p s) (recover X)
      (fun _ => Recovered .resolve b) (Failed allow intent a refusal) :=
  within steps ((recover_spec alone).weaken fun _ here => ⟨b, .refl, here.holds agree⟩)

end Spec

end TerrapiVault.Replication.Pair
