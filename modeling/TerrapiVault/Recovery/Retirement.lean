import TerrapiVault.Recovery.SuccessorSteps

/-! Identities along a lineage of losses. A loss burns the identity it fences, a
superseding loss burns the replacement it drops, and a successor journal carries all
that was burnt before it. -/
namespace TerrapiVault.Recovery

open Replication (ensure_eq_ok)

variable {T : Type → Type}

structure Identity where
  member : Id
  generation : Id
  membership : Id
deriving DecidableEq

/-- No component in common. -/
def Identity.Apart (a b : Identity) : Prop :=
  a.member ≠ b.member ∧ a.generation ≠ b.generation ∧ a.membership ≠ b.membership

namespace LossRequest

def lost (r : LossRequest) : Identity := ⟨r.lostMember, r.lostGeneration, r.membership⟩

def replacement (r : LossRequest) : Identity :=
  ⟨r.replacementMember, r.replacementGeneration, r.replacementMembership⟩

theorem Valid.replacement_lost {r : LossRequest} (valid : r.Valid) :
    r.replacement.Apart r.lost := by
  obtain ⟨_, _, membership, _, generation, _, member, _⟩ := valid.replacement
  exact ⟨member, generation, membership⟩

theorem Valid.replacement_survivor {r : LossRequest} (valid : r.Valid) :
    r.replacementMember ≠ r.survivor.member ∧
      r.replacementGeneration ≠ r.survivor.generation := by
  obtain ⟨_, _, _, _, _, generation, _, member, _⟩ := valid.replacement
  exact ⟨member, generation⟩

end LossRequest

variable {retired : Retired} {id other : Identity} {chain : List LossRecord} {policy : LossPolicy}
  {history : History} {source : Journal T} {scope : JournalScope}

namespace Retired

/-- The set holds every component of the identity. -/
def Holds (retired : Retired) (id : Identity) : Prop :=
  id.member ∈ retired.members ∧ id.generation ∈ retired.generations ∧
    id.membership ∈ retired.memberships

theorem Holds.apart (holds : retired.Holds other)
    (fresh : ¬retired.Contains id.member id.generation id.membership) : id.Apart other := by
  refine ⟨fun same => fresh (.inl ?_), fun same => fresh (.inr (.inl ?_)),
    fun same => fresh (.inr (.inr ?_))⟩
  · exact same ▸ holds.1
  · exact same ▸ holds.2.1
  · exact same ▸ holds.2.2

def pushIdentity (retired : Retired) (id : Identity) : Retired :=
  retired.push id.member id.generation id.membership

theorem push_own (retired : Retired) (id : Identity) : (retired.pushIdentity id).Holds id := by
  refine ⟨?_, ?_, ?_⟩
  all_goals
    simp only [pushIdentity, push]
    split_ifs with known
    · exact known
    · simp

theorem push_keeps (id : Identity) (holds : retired.Holds other) :
    (retired.pushIdentity id).Holds other := by
  obtain ⟨member, generation, membership⟩ := holds
  refine ⟨?_, ?_, ?_⟩
  all_goals
    simp only [pushIdentity, push]
    split_ifs <;> simp [member, generation, membership]

theorem foldl_push_keeps (holds : retired.Holds other) (ids : List Identity) :
    (ids.foldl pushIdentity retired).Holds other := by
  induction ids generalizing retired with
  | nil => exact holds
  | cons id ids ih => exact ih (push_keeps id holds)

theorem foldl_push_own {ids : List Identity} (mem : id ∈ ids) (retired : Retired) :
    (ids.foldl pushIdentity retired).Holds id := by
  induction ids generalizing retired with
  | nil => cases mem
  | cons first ids ih =>
    rcases List.mem_cons.mp mem with rfl | mem
    · exact foldl_push_keeps (push_own retired id) ids
    · exact ih mem _

theorem pushChain_cons (retired : Retired) (first : LossRecord) (rest : List LossRecord) :
    retired.pushChain (first :: rest) =
      (first.request.lost :: (first :: rest).dropLast.map fun r => r.request.replacement).foldl
        pushIdentity retired := by
  rw [List.foldl_cons, List.foldl_map]
  rfl

end Retired

/-- The recorded losses, decoded and not checked. -/
def Journal.losses (E : Env T) (j : Journal T) : List LossRecord :=
  match j.loss.join with
  | none => []
  | some cell => (E.decode cell.record).toList ++
      (j.lossChain.getD []).filterMap fun row => E.decode row.record

variable {E : Env T} {trust : Trust} {j j' : Journal T} {request : LossRequest} {base : ℕ}

theorem followChain_decoded {previous : LossRecord} {rows : List (Row T LossRecord)}
    (h : E.followChain trust previous rows = .ok chain) :
    rows.filterMap (fun row => E.decode row.record) = chain := by
  induction rows generalizing previous chain with
  | nil => exact Except.ok.inj h
  | cons row rows ih =>
    obtain ⟨record, rest, follows, followed, rfl⟩ := followChain_cons_eq_ok.mp h
    simp [(decodeLossRow_eq_ok.mp follows.decoded).1.2.2, ih followed]

namespace Journal

theorem losses_of_none (unrecorded : j.loss.join = none) : j.losses E = [] := by
  rw [losses, unrecorded]

theorem losses_of_some {cell : Cell T LossRecord} (loss : j.loss = some (some cell)) :
    j.losses E = (E.decode cell.record).toList ++
      (j.lossChain.getD []).filterMap fun row => E.decode row.record := by
  rw [losses, loss]
  rfl

theorem readLossHistory_losses (h : j.readLossHistory E trust = .ok chain) :
    chain = j.losses E := by
  obtain ⟨none, rfl⟩ | ⟨cell, first, rest, loss, reads, rfl⟩ := readLossHistory_cases h
  · rw [losses_of_none none]
  · rw [losses_of_some loss, (decodeLossRow_eq_ok.mp reads.decoded).1.2.2,
      followChain_decoded reads.followed]
    rfl

theorem decideLoss_losses {token : String} {now : ℕ} {c : CommittedLoss}
    (clean : j.loss.join = none → j.lossChain.getD [] = [])
    (h : j.decideLoss E request token now trust policy = .ok (j', c)) :
    (j' = j ∧ ∃ old, (j.losses E).getLast? = some old ∧ old.request = request) ∨
      ∃ certificate, j'.losses E = j.losses E ++ [⟨request, token, certificate⟩] ∧
        j'.loss.join ≠ none := by
  obtain ⟨_, _, _, chain, _, _, read, ⟨old, last, same, rfl⟩ | ⟨certificate, _, _, none, rfl⟩ |
    ⟨_, prev, _, certificate, _, _, last, _, _, _, _, _, same⟩⟩ := decideLoss_effect h
  · exact .inl ⟨rfl, old, readLossHistory_losses read ▸ last, same⟩
  · refine .inr ⟨certificate, ?_, by simp⟩
    rw [losses_of_none none, losses_of_some rfl, clean none]
    simp [Env.cell, E.decode_encode]
  · obtain ⟨_, rfl⟩ | ⟨cell, first, rest, loss, _, rfl⟩ := readLossHistory_cases read
    · cases last
    · have loss' : j'.loss = some (some cell) := by
        rw [same]
        exact loss
      refine .inr ⟨certificate, ?_, by simp [loss']⟩
      rw [losses_of_some loss, losses_of_some loss', same]
      simp [Env.row, E.decode_encode]

theorem lossSource_membership {certificate digest : Id} {cut : Checkpoint}
    {participants : Fin 2 → Participant} {lost : Fin 2}
    (h : j.scope.lossSource request certificate digest cut participants lost = .ok ()) :
    request.membership = j.scope.membership := by
  simp only [JournalScope.lossSource, unit_bind_eq_ok, ensure_eq_ok] at h
  exact h.1.2.2.2.2.1

theorem lossBase_membership (h : j.lossBase E history request trust = .ok base) :
    request.membership = j.scope.membership := by
  cases kind : request.kind with
  | completed =>
    simp only [lossBase, kind, lossFromCompleted, run_ok] at h
    obtain ⟨_, _, _, _, _, _, _, _, source, _⟩ := h
    exact lossSource_membership source
  | decided =>
    simp only [lossBase, kind, lossFromDecided, run_ok] at h
    obtain ⟨_, _, _, _, _, _, _, _, _, _, _, _, source, _⟩ := h
    exact lossSource_membership source
  | lossSuccessor =>
    simp only [lossBase, kind, lossFromSuccessor, run_ok] at h
    obtain ⟨_, _, _, _, _, _, _, _, _, _, source, _⟩ := h
    exact lossSource_membership source

/-- Without an ordinary head a loss is one of a completed successor, and its replacement
is not retired. -/
theorem lossBase_headless (headless : history.head = none)
    (h : j.lossBase E history request trust = .ok base) :
    ∃ parent r, j.readParent E trust = .ok (some parent) ∧ j.successorAbort.join = none ∧
      j.readSuccessor E trust = .ok (some r) ∧ r.completion.isSome ∧
      ¬parent.retired.Contains request.replacementMember request.replacementGeneration
        request.replacementMembership := by
  cases kind : request.kind with
  | completed =>
    simp [lossBase, kind, lossFromCompleted, completedSource, headless, require] at h
  | decided => simp [lossBase, kind, lossFromDecided, headless, require] at h
  | lossSuccessor =>
    simp only [lossBase, kind, lossFromSuccessor, checked_ok, requireParent_eq_ok,
      requireSuccessor_eq_ok, ensureSuccessorNotAborted_eq_ok] at h
    obtain ⟨_, parent, founded, r, decided, notAborted, _, ⟨_, completed⟩, _, _, _, fresh, _⟩ := h
    exact ⟨parent, r, founded, notAborted, decided, completed, fresh.1⟩

theorem read_headless (empty : j.history = []) (h : j.read E trust = .ok history) :
    history.head = none := by
  obtain ⟨events, p, _, layout, rfl⟩ := read_eq_ok.mp h
  have records : recordsOf events = [] := by
    have stored := layout.history
    rw [empty, List.forall₂_nil_left_iff] at stored
    exact stored
  cases head : (p.history j.scope events).head with
  | none => rfl
  | some r =>
    have mem := liveOf_subset_recordsOf (effective_mem_liveOf layout.trail head)
    rw [records] at mem
    cases mem

/-- A successor journal never takes an ordinary transition. -/
theorem transition_of_parent {c : JournalCall} {cell : Option (Cell T SuccessorParent)}
    (founded : j.parent = some cell) (empty : j.history = []) : c.run E trust j ≠ .ok j' := by
  intro h
  obtain ⟨⟨history, read⟩, _⟩ := c.run_opens h
  have headless := read_headless empty read
  have successor : j.successorParentExists = true := by rw [successorParentExists, founded]; rfl
  cases c with
  | decide request token now policy =>
    simp only [JournalCall.run, decide, checked_ok] at h
    obtain ⟨_, ⟨_, _, history', read', _, _, _, sequenced, _⟩, _⟩ := h
    obtain rfl := ok_unique read read'
    simp [headless, successor] at sequenced
  | acknowledge decision member policy =>
    simp only [JournalCall.run, acknowledge, run_ok, require_eq_ok] at h
    obtain ⟨history', read', _, r, head, _⟩ := h
    obtain rfl := ok_unique read read'
    simp [headless] at head
  | complete decision id policy =>
    simp only [JournalCall.run, complete, run_ok, require_eq_ok] at h
    obtain ⟨_, history', read', _, r, head, _⟩ := h
    obtain rfl := ok_unique read read'
    simp [headless] at head
  | abort cancellation token now policy =>
    simp only [JournalCall.run, Journal.abort, checked_ok] at h
    obtain ⟨_, ⟨_, _, _, _, root, _⟩, _⟩ := h
    simp [successor] at root

/-- What holds of a journal whose lineage burnt `burnt` before it. -/
structure Lineal (E : Env T) (burnt : List Identity) (j : Journal T) : Prop where
  scopeValid : j.scope.validate = .ok ()
  clean : j.loss.join = none → j.lossChain.getD [] = []
  founded : j.parent = none ∧ burnt = [] ∨ ∃ cell parent, j.parent = some (some cell) ∧
    E.decode cell.record = some parent ∧ (∀ id ∈ burnt, parent.retired.Holds id) ∧ j.history = []
  wellFormed : ∀ r ∈ j.losses E, r.request.Valid
  lost : ∀ r ∈ j.losses E, ∀ r' ∈ j.losses E, r.request.lost = r'.request.lost
  membership : ∀ r ∈ j.losses E, r.request.membership = j.scope.membership
  fresh : ∀ r ∈ j.losses E, ∀ id ∈ burnt, r.request.replacement.Apart id
  apart : (j.losses E).Pairwise fun r r' => r'.request.replacement.Apart r.request.replacement

/-- What the checks of a new loss establish. -/
structure Accepted (E : Env T) (burnt : List Identity) (j : Journal T) (request : LossRequest) :
    Prop where
  wellFormed : request.Valid
  lost : ∀ r ∈ j.losses E, request.lost = r.request.lost
  membership : request.membership = j.scope.membership
  fresh : ∀ id ∈ burnt, request.replacement.Apart id
  apart : ∀ r ∈ j.losses E, request.replacement.Apart r.request.replacement

variable {burnt : List Identity}

theorem Lineal.fresh_of_base (lineal : j.Lineal E burnt) (read : j.read E trust = .ok history)
    (based : j.lossBase E history request trust = .ok base) :
    ∀ id ∈ burnt, request.replacement.Apart id := by
  obtain ⟨_, rfl⟩ | ⟨cell, parent, founded, decoded, holds, empty⟩ := lineal.founded
  · simp
  · obtain ⟨parent', _, found, _, _, _, unused⟩ := lossBase_headless (read_headless empty read) based
    obtain ⟨cell', founded', decoded', _⟩ := readParent_eq_some found
    obtain rfl : cell = cell' := Option.some.inj (Option.mem_unique founded founded')
    obtain rfl : parent = parent' := Option.mem_unique decoded decoded'
    exact fun id mem => (holds id mem).apart unused

theorem Lineal.decideLoss {token : String} {now : ℕ} {c : CommittedLoss}
    (lineal : j.Lineal E burnt) (h : j.decideLoss E request token now trust policy = .ok (j', c)) :
    (j' = j ∧ ∃ old, (j.losses E).getLast? = some old ∧ old.request = request) ∨
      j.Accepted E burnt request ∧ ∃ certificate,
        j'.losses E = j.losses E ++ [⟨request, token, certificate⟩] ∧ j'.loss.join ≠ none := by
  obtain retry | added := decideLoss_losses lineal.clean h
  · exact .inl retry
  obtain ⟨valid, history, base, chain, read, based, chained, outcome⟩ := decideLoss_effect h
  obtain rfl := readLossHistory_losses chained
  have membership := lossBase_membership based
  have fresh := lineal.fresh_of_base read based
  obtain ⟨old, last, same, rfl⟩ | ⟨_, _, empty, _, _⟩ |
    ⟨_, prev, _, _, _, _, last, _, _, binds, _⟩ := outcome
  · exact .inl ⟨rfl, old, last, same⟩
  · refine .inr ⟨⟨valid, ?_, membership, fresh, ?_⟩, added⟩
    all_goals simp [empty]
  · simp only [Env.supersedesPrevious, unit_bind_eq_ok, ensure_eq_ok] at binds
    obtain ⟨_, ⟨first, _, _, member, generation, _⟩, _, unused⟩ := binds
    refine .inr ⟨⟨valid, ?_, membership, fresh, unused⟩, added⟩
    intro r mem
    have own : request.lost = prev.request.lost := by
      rw [LossRequest.lost, LossRequest.lost, member, generation, first.2.2.2.2.2.2.2.1]
    exact own.trans (lineal.lost prev (List.mem_of_getLast? last) r mem)

theorem Lineal.append {r : LossRecord} (lineal : j.Lineal E burnt)
    (accepted : j.Accepted E burnt r.request) (losses : j'.losses E = j.losses E ++ [r])
    (recorded : j'.loss.join ≠ none) (scope : j'.scope = j.scope) (parent : j'.parent = j.parent)
    (history : j'.history = j.history) : j'.Lineal E burnt := by
  refine ⟨scope ▸ lineal.scopeValid, fun none => absurd none recorded, ?_, ?_, ?_, ?_, ?_, ?_⟩
  · rw [parent, history]
    exact lineal.founded
  all_goals rw [losses]
  · rw [List.forall_mem_append, List.forall_mem_singleton]
    exact ⟨lineal.wellFormed, accepted.wellFormed⟩
  · intro a mem b mem'
    rw [List.mem_append, List.mem_singleton] at mem mem'
    rcases mem with mem | rfl <;> rcases mem' with mem' | rfl
    · exact lineal.lost a mem b mem'
    · exact (accepted.lost a mem).symm
    · exact accepted.lost b mem'
    · rfl
  · rw [List.forall_mem_append, List.forall_mem_singleton, scope]
    exact ⟨lineal.membership, accepted.membership⟩
  · rw [List.forall_mem_append, List.forall_mem_singleton]
    exact ⟨lineal.fresh, accepted.fresh⟩
  · rw [List.pairwise_append]
    refine ⟨lineal.apart, List.pairwise_singleton _ _, fun a mem b last => ?_⟩
    exact List.mem_singleton.mp last ▸ accepted.apart a mem

theorem Lineal.run {c : Call} (lineal : j.Lineal E burnt) (h : c.run E trust j = .ok j') :
    j'.Lineal E burnt := by
  obtain ⟨_, _, _, _, _, _, decided⟩ | ⟨loss, table, _, scope, parent, _, kept⟩ :=
    c.run_cases (JournalScope.validate_positive lineal.scopeValid) h
  · obtain ⟨_, _, _, _, frame⟩ := decideLoss_frame decided
    obtain ⟨rfl, _⟩ | ⟨accepted, certificate, losses, recorded⟩ := lineal.decideLoss decided
    · exact lineal
    · refine lineal.append accepted losses recorded ?_ ?_ ?_
      all_goals rw [frame]
  · have losses : j'.losses E = j.losses E := by rw [Journal.losses, Journal.losses, loss, table]
    refine ⟨scope ▸ lineal.scopeValid, ?_, ?_, ?_, ?_, ?_, ?_, ?_⟩
    · rw [loss, table]
      exact lineal.clean
    · rw [parent]
      obtain root | ⟨cell, record, founded, decoded, holds, empty⟩ := lineal.founded
      · exact .inl root
      · obtain ⟨t, rfl⟩ | history := kept
        · exact absurd h (transition_of_parent founded empty)
        · exact .inr ⟨cell, record, founded, decoded, holds, history.trans empty⟩
    all_goals rw [losses]
    · exact lineal.wellFormed
    · exact lineal.lost
    · rw [scope]
      exact lineal.membership
    · exact lineal.fresh
    · exact lineal.apart

end Journal

/-- What the losses of a journal burn once a successor is founded on the last of them. -/
def retiredBy (chain : List LossRecord) : List Identity :=
  chain.map (fun r => r.request.lost) ++ chain.dropLast.map fun r => r.request.replacement

theorem pushChain_holds (lost : ∀ r ∈ chain, ∀ r' ∈ chain, r.request.lost = r'.request.lost) :
    ∀ id ∈ retiredBy chain, (retired.pushChain chain).Holds id := by
  intro id mem
  cases chain with
  | nil => cases mem
  | cons first rest =>
    rw [Retired.pushChain_cons]
    refine Retired.foldl_push_own ?_ retired
    rcases List.mem_append.mp mem with mem | mem
    · obtain ⟨r, inside, rfl⟩ := List.mem_map.mp mem
      rw [lost r inside first List.mem_cons_self]
      exact List.mem_cons_self
    · exact List.mem_cons_of_mem _ mem

theorem pushChain_keeps (holds : retired.Holds id) : (retired.pushChain chain).Holds id := by
  cases chain with
  | nil => exact holds
  | cons first rest =>
    rw [Retired.pushChain_cons]
    exact Retired.foldl_push_keeps holds _

theorem createLossSuccessor_effect {this : Journal T} {file : SuccessorFile T}
    (vacant : file = .absent ∨ file = .pristine)
    (h : (source.createLossSuccessor E file scope trust policy).1 = .journal this) :
    ∃ parent digest, source.expectedParent E scope trust policy = .ok (parent, digest) ∧
      initializePristineSuccessor E scope parent = .ok this := by
  cases expected : source.expectedParent E scope trust policy with
  | error e => rcases vacant with rfl | rfl <;> simp [Journal.createLossSuccessor, expected] at h
  | ok found =>
    obtain ⟨parent, digest⟩ := found
    refine ⟨parent, digest, rfl, ?_⟩
    cases initialized : initializePristineSuccessor E scope parent with
    | error e =>
      rcases vacant with rfl | rfl <;>
        simp [Journal.createLossSuccessor, expected, initialized] at h
    | ok made =>
      rcases vacant with rfl | rfl <;>
        simp [Journal.createLossSuccessor, expected, initialized] at h <;> rw [h]

theorem expectedParent_eq_ok {parent : SuccessorParent} {digest : Id}
    (h : source.expectedParent E scope trust policy = .ok (parent, digest)) :
    scope.validate = .ok () ∧ ∃ chain before, source.readLossHistory E trust = .ok chain ∧
      chain.getLast? = some parent.loss ∧ source.readParent E trust = .ok before ∧
      parent.retired = ((before.map SuccessorParent.retired).getD Retired.empty).pushChain chain ∧
      scope.membership = parent.loss.request.replacementMembership := by
  simp only [Journal.expectedParent, Journal.fetchLoss, Journal.retiredIdentities,
    Journal.readRecord, Env.committedLoss, checked_ok, require_eq_ok, checkedSucc_eq_ok] at h
  obtain ⟨valid, _, ⟨_, _, ⟨chain, read, rfl⟩, old, last, _, id, verified, rfl⟩, _, _, ⟨_, _, _,
    _, membership, _⟩, _, _, ⟨before, founded, chain', read', rfl⟩, rfl, rfl⟩ := h
  obtain rfl := ok_unique read read'
  have same := Env.verifyDocument_unique
    (Journal.readLossHistory_verified read _ (List.mem_of_getLast? last)) verified
  refine ⟨valid, chain, before, read, ?_, founded, rfl, membership⟩
  rw [last, ← same]

theorem readParent_decoded {cell : Cell T SuccessorParent} {parent : SuccessorParent}
    {found : Option SuccessorParent} (founded : j.parent = some (some cell))
    (decoded : E.decode cell.record = some parent) (h : j.readParent E trust = .ok found) :
    found = some parent := by
  simp only [Journal.readParent, founded, run_ok, load_eq_ok] at h
  obtain ⟨_, ⟨_, _, decoded'⟩, _, _, rfl⟩ := h
  exact decoded'.symm.trans decoded

theorem Journal.Lineal.found {this : Journal T} {file : SuccessorFile T} {burnt : List Identity}
    (lineal : source.Lineal E burnt) (vacant : file = .absent ∨ file = .pristine)
    (h : (source.createLossSuccessor E file scope trust policy).1 = .journal this)
    (read : source.readLossHistory E trust = .ok chain) :
    this.Lineal E (burnt ++ retiredBy chain) := by
  obtain ⟨parent, digest, expected, made⟩ := createLossSuccessor_effect vacant h
  obtain ⟨valid, chain', before, read', _, founded, retired, _⟩ := expectedParent_eq_ok expected
  obtain rfl := ok_unique read read'
  simp only [initializePristineSuccessor, run_ok] at made
  obtain ⟨_, rfl⟩ := made
  refine ⟨valid, fun _ => rfl, .inr ⟨E.cell parent, parent, rfl, E.decode_encode parent, ?_, rfl⟩,
    ?_, ?_, ?_, ?_, ?_⟩
  · rw [List.forall_mem_append, retired]
    refine ⟨fun id mem => pushChain_keeps ?_, pushChain_holds ?_⟩
    · obtain ⟨_, rfl⟩ | ⟨cell, parent', founded', decoded, holds, _⟩ := lineal.founded
      · cases mem
      · rw [readParent_decoded founded' decoded founded]
        exact holds id mem
    · rw [Journal.readLossHistory_losses read]
      exact lineal.lost
  all_goals simp [Journal.losses]

/-- The journals of a lineage, each with the identities burnt before it: the root, what
calls make of a journal, and the successor founded on the effective loss of one. -/
inductive Lineage (E : Env T) : List Identity → Journal T → Prop
  | root {scope : JournalScope} {j : Journal T} (created : Journal.create E scope = .ok j) :
    Lineage E [] j
  | call {burnt : List Identity} {j j' : Journal T} {trust : Trust} {c : Call}
    (before : Lineage E burnt j) (ran : c.run E trust j = .ok j') : Lineage E burnt j'
  | successor {burnt : List Identity} {source this : Journal T} {file : SuccessorFile T}
    {scope : JournalScope} {trust : Trust} {policy : LossPolicy} {chain : List LossRecord}
    (before : Lineage E burnt source) (vacant : file = .absent ∨ file = .pristine)
    (founded : (source.createLossSuccessor E file scope trust policy).1 = .journal this)
    (read : source.readLossHistory E trust = .ok chain) :
    Lineage E (burnt ++ retiredBy chain) this

theorem Lineage.lineal {burnt : List Identity} (lineage : Lineage E burnt j) :
    j.Lineal E burnt := by
  induction lineage with
  | root created =>
    simp only [Journal.create, unit_bind_eq_ok, pure_inj] at created
    obtain ⟨valid, rfl⟩ := created
    refine ⟨valid, fun _ => rfl, .inl ⟨rfl, rfl⟩, ?_, ?_, ?_, ?_, ?_⟩
    all_goals simp [Journal.losses]
  | call _ ran ih => exact ih.run ran
  | successor _ vacant founded read ih => exact ih.found vacant founded read

/-- An accepted loss replaces by an identity that shares no component with any identity
the lineage lost or superseded before, nor with the survivor. -/
theorem retired_never_returns {burnt : List Identity} {token : String} {now : ℕ}
    {policy : LossPolicy} {c : CommittedLoss} (lineage : Lineage E burnt j)
    (h : j.decideLoss E request token now trust policy = .ok (j', c)) :
    (∀ id ∈ burnt, request.replacement.Apart id) ∧
      request.replacement.Apart request.lost ∧
      (∀ r ∈ j.losses E, request.replacement.Apart r.request.lost) ∧
      (∀ r ∈ j.losses E, r.request ≠ request →
        request.replacement.Apart r.request.replacement) ∧
      request.replacementMember ≠ request.survivor.member ∧
      request.replacementGeneration ≠ request.survivor.generation := by
  have lineal := lineage.lineal
  obtain ⟨_, old, last, rfl⟩ | ⟨accepted, _⟩ := lineal.decideLoss h
  · have mem := List.mem_of_getLast? last
    have valid := lineal.wellFormed old mem
    refine ⟨lineal.fresh old mem, valid.replacement_lost, fun r inside => ?_, fun r inside other => ?_,
      valid.replacement_survivor⟩
    · rw [lineal.lost r inside old mem]
      exact valid.replacement_lost
    · obtain ⟨front, split⟩ := List.getLast?_eq_some_iff.mp last
      have apart := lineal.apart
      rw [split, List.pairwise_append] at apart
      rw [split, List.mem_append, List.mem_singleton] at inside
      rcases inside with inside | rfl
      · exact apart.2.2 r inside old (by simp)
      · exact absurd rfl other
  · have valid := accepted.wellFormed
    refine ⟨accepted.fresh, valid.replacement_lost, fun r inside => ?_,
      fun r inside _ => accepted.apart r inside, valid.replacement_survivor⟩
    rw [← accepted.lost r inside]
    exact valid.replacement_lost

namespace Sample

/-- No successor was aborted. -/
def strict : LossPolicy :=
  { lossPolicy with supersededSuccessorAborted := fun _ _ _ => .error (.message "not aborted") }

/-- The loss of the replacement of `loss 2`. -/
def heirLoss : LossRequest := { loss 4 with
  membership := mark 3
  sourceTokenDigest := mark 7
  lostMember := mark 3
  lostGeneration := mark 3
  sourceKind := some .lossSuccessor
  abandonedRequest := none
  supersedes := none }

def heirBody : (d : Document) → ℕ → d.Body
  | .loss => fun n => if n = 4 then heirLoss else loss n
  | d => body d

def heirEnv : Env fun α => α := carrying heirBody

def runs (calls : List Call) (j : Journal fun α => α) : Option (Journal fun α => α) :=
  calls.foldlM (fun j c => (c.run heirEnv trusted j).toOption) j

def rootCalls : List Call :=
  [.transition (decision 1), .transition (acknowledgement 1 0), .transition (acknowledgement 1 1),
    .transition (completion 1), .decideLoss (loss 2) (token .loss 2) 0 strict]

def fenced : Journal fun α => α := (runs rootCalls created).getD created

def heirScope : JournalScope :=
  { Sample.scope with membership := mark 3, sourceAnchor := cut 1, initialRevision := 3 }

def journalOf : SuccessorFile (fun α => α) → Option (Journal fun α => α)
  | .journal j => some j
  | _ => none

def founded : Journal fun α => α :=
  (journalOf (fenced.createLossSuccessor heirEnv .absent heirScope trusted strict).1).getD created

def heirDecision : CommittedLossSuccessorTransition where
  request := successor 3
  token := token .successor 3
  tokenDigest := mark 7
  certificateId := mark 1
  sourceScope := Sample.scope
  lossRequest := loss 2
  lossTokenDigest := mark 6
  lossCertificateId := mark 1
  acknowledgements := both false

def heirCalls : List Call :=
  [.decideLossSuccessor (successor 3) (token .successor 3) 0 strict,
    .acknowledgeLossSuccessor heirDecision ((successor 3).participants 0) strict,
    .acknowledgeLossSuccessor heirDecision ((successor 3).participants 1) strict,
    .completeLossSuccessor heirDecision (mark 1) strict]

def heir : Journal fun α => α := (runs heirCalls founded).getD created

theorem runs_fenced : runs rootCalls created = some fenced :=
  (Option.getD_of_ne_none (Option.isSome_iff_ne_none.mp (by decide +kernel)) _).symm

theorem founded_file :
    (fenced.createLossSuccessor heirEnv .absent heirScope trusted strict).1 = .journal founded := by
  have made : (journalOf (fenced.createLossSuccessor heirEnv .absent heirScope trusted
      strict).1).isSome := by decide +kernel
  cases outcome : (fenced.createLossSuccessor heirEnv .absent heirScope trusted strict).1 with
  | journal j => simp [founded, outcome, journalOf]
  | absent => simp [outcome, journalOf] at made
  | pristine => simp [outcome, journalOf] at made

theorem runs_heir : runs heirCalls founded = some heir :=
  (Option.getD_of_ne_none (Option.isSome_iff_ne_none.mp (by decide +kernel)) _).symm

theorem lineage_runs {calls : List Call} {burnt : List Identity} {j j' : Journal fun α => α}
    (lineage : Lineage heirEnv burnt j) (ran : runs calls j = some j') :
    Lineage heirEnv burnt j' := by
  induction calls generalizing j with
  | nil => exact Option.some.inj ran ▸ lineage
  | cons c calls ih =>
    rw [runs, List.foldlM_cons] at ran
    obtain ⟨next, first, rest⟩ := Option.bind_eq_some_iff.mp ran
    exact ih (lineage.call (toOption_eq_some.mp first)) rest

theorem retired_never_returns_heir : ∃ j' c,
    heir.decideLoss heirEnv heirLoss (token .loss 4) 0 trusted strict = .ok (j', c) ∧
    heirLoss.replacement.Apart (loss 2).lost ∧ heirLoss.replacement.Apart heirLoss.lost := by
  have read : fenced.readLossHistory heirEnv trusted = .ok [lossRecord 2] := by decide +kernel
  have lineage := lineage_runs (.successor (lineage_runs (.root create_created) runs_fenced)
    (.inl rfl) founded_file read) runs_heir
  obtain ⟨⟨j', c⟩, done⟩ := Option.isSome_iff_exists.mp
    (show (heir.decideLoss heirEnv heirLoss (token .loss 4) 0 trusted strict).toOption.isSome by
      decide +kernel)
  obtain ⟨old, lost, _⟩ := retired_never_returns lineage (toOption_eq_some.mp done)
  exact ⟨j', c, toOption_eq_some.mp done, old _ (by simp [retiredBy, lossRecord]), lost⟩

end Sample

end TerrapiVault.Recovery
