import TerrapiVault.Recovery.Retirement

/-! A source journal and the successor journals founded on its losses, theirs and so
on. The journals never read each other. The ones without an abort form a single path
from the root, and only its end can hand out a completed writer proof. -/
namespace TerrapiVault.Recovery

variable {T : Type → Type}

/-- A journal and, for a successor, the journal and the loss it was founded on. -/
structure Branch (T : Type → Type) where
  journal : Journal T
  source : Option (ℕ × LossRequest)

/-- The abort a superseding loss names is the one recorded here. -/
def Journal.AbortRecorded (E : Env T) (j : Journal T) (s : Supersedes) : Prop :=
  ∃ cell a, j.successorAbort = some (some cell) ∧ E.decode cell.record = some a ∧
    a.certificateId = s.abortCertificate ∧ E.tokenDigest a.token = s.abortTokenDigest

/-- `superseded_successor_aborted` only says yes to an abort that the previous loss's
successor journal has recorded. -/
def Honest (E : Env T) (forest : List (Branch T)) (i : ℕ) : Call → Prop
  | .decideLoss _ _ _ policy => ∀ scope previous s,
      policy.supersededSuccessorAborted scope previous s = .ok () →
      ∃ b ∈ forest, b.source = some (i, previous) ∧ b.journal.AbortRecorded E s
  | _ => True

/-- One step anywhere in the forest. A loss founds one successor journal. -/
inductive Grows (E : Env T) : List (Branch T) → List (Branch T) → Prop
  | call {forest : List (Branch T)} {i : ℕ} {b : Branch T} {trust : Trust} {c : Call}
    {j' : Journal T} (place : forest[i]? = some b) (honest : Honest E forest i c)
    (ran : c.run E trust b.journal = .ok j') :
    Grows E forest (forest.set i { b with journal := j' })
  | found {forest : List (Branch T)} {i : ℕ} {b : Branch T} {trust : Trust} {policy : LossPolicy}
    {scope : JournalScope} {file : SuccessorFile T} {this : Journal T} {loss : LossRecord}
    (place : forest[i]? = some b) (vacant : file = .absent ∨ file = .pristine)
    (founded : (b.journal.createLossSuccessor E file scope trust policy).1 = .journal this)
    (effective : b.journal.readRecord E trust = .ok (some loss))
    (single : ∀ b' ∈ forest, b'.source ≠ some (i, loss.request)) :
    Grows E forest (forest ++ [⟨this, some (i, loss.request)⟩])

/-- Some reader gets a completed writer proof for the membership. -/
def Journal.Fetchable (E : Env T) (j : Journal T) (membership : Id) : Prop :=
  (∃ request trust policy c, j.fetchCompleted E request trust policy = .ok c ∧
      request.membership = membership) ∨
    ∃ request trust policy c, j.fetchCompletedLossSuccessor E request trust policy = .ok c ∧
      request.membership = membership

variable {E : Env T} {trust : Trust} {j j' : Journal T} {membership : Id} {policy : LossPolicy}
  {forest' : List (Branch T)} {b' : Branch T} {r : LossRecord}

namespace Journal

theorem fetchCompleted_eq_ok {request : Request} {policy : Policy} {c : CompletedTransition}
    (h : j.fetchCompleted E request trust policy = .ok c) :
    j.loss.join = none ∧ j.history ≠ [] ∧ request.membership = j.scope.membership := by
  obtain ⟨committed, fetched, _⟩ := bind_eq_ok.mp h
  have live : j.loss.join = none := by
    cases table : j.loss.join with
    | none => rfl
    | some cell => exact absurd fetched (fetch_of_loss (Option.join_eq_some_iff.mp table))
  simp only [fetch, checked_ok, require_eq_ok] at fetched
  obtain ⟨history, read, _, _, _, r, head, rfl, _⟩ := fetched
  refine ⟨live, fun empty => ?_, ?_⟩
  · simp [read_headless empty read] at head
  · obtain ⟨events, p, _, layout, rfl⟩ := read_eq_ok.mp read
    have mem := liveOf_subset_recordsOf (effective_mem_liveOf layout.trail head)
    exact (trail_binds layout.trail mem).2.2.2.2.1

theorem fetchCompletedLossSuccessor_membership {request : LossSuccessorRequest}
    {c : CompletedLossSuccessorTransition}
    (h : j.fetchCompletedLossSuccessor E request trust policy = .ok c) :
    request.membership = j.scope.membership := by
  obtain ⟨parent, _, standing, _, _, _, _, valid⟩ := fetchCompletedLossSuccessor_effect h
  obtain ⟨_, _, _, _, founded⟩ := readParent_eq_some standing.founded
  simp only [JournalScope.validateSuccessorRequest, checked_ok] at valid
  obtain ⟨_, _, bound, _⟩ := valid
  exact bound.2.2.2.2.2.1.trans founded.symm

theorem Fetchable.open (fetchable : j.Fetchable E membership) :
    membership = j.scope.membership ∧ j.loss.join = none ∧
      (j.history = [] → j.successorAbort.join = none) := by
  obtain ⟨request, trust, policy, c, fetched, rfl⟩ | ⟨request, trust, policy, c, fetched, rfl⟩ :=
    fetchable
  · obtain ⟨live, nonempty, own⟩ := fetchCompleted_eq_ok fetched
    exact ⟨own, live, fun empty => absurd empty nonempty⟩
  · obtain ⟨_, _, standing, _⟩ := fetchCompletedLossSuccessor_effect fetched
    exact ⟨fetchCompletedLossSuccessor_membership fetched, standing.live,
      fun _ => standing.notAborted⟩

end Journal

/-- What a call means to the rest of the forest. -/
inductive Outcome (E : Env T) (c : Call) (j j' : Journal T) : Prop
  | quiet (losses : j'.losses E = j.losses E) (loss : j'.loss.join = none ↔ j.loss.join = none)
    (abort : j'.successorAbort = j.successorAbort)
  | lost (r : LossRecord) (losses : j'.losses E = j.losses E ++ [r])
    (recorded : j'.loss.join ≠ none) (abort : j'.successorAbort = j.successorAbort)
    (upright : j.history = [] → j.successorAbort.join = none)
    (superseded : j.losses E ≠ [] → ∃ request token now policy prev s,
      c = .decideLoss request token now policy ∧ (j.losses E).getLast? = some prev ∧
      policy.supersededSuccessorAborted j.scope prev.request s = .ok ())
  | aborted (live : j.loss.join = none) (losses : j'.losses E = j.losses E)
    (loss : j'.loss.join = none) (notAborted : j.successorAbort.join = none)
    (recorded : j'.successorAbort.join ≠ none) (founded : j.parent ≠ none)

theorem decideLoss_outcome {burnt : List Identity} {request : LossRequest} {token : String}
    {now : ℕ} {c : CommittedLoss} (lineal : j.Lineal E burnt)
    (h : j.decideLoss E request token now trust policy = .ok (j', c)) :
    Outcome E (.decideLoss request token now policy) j j' := by
  obtain ⟨rfl, _⟩ | ⟨_, certificate, losses, recorded⟩ := lineal.decideLoss h
  · exact .quiet rfl Iff.rfl rfl
  obtain ⟨_, _, _, _, frame⟩ := Journal.decideLoss_frame h
  obtain ⟨_, history, base, chain, read, based, chained, outcome⟩ := Journal.decideLoss_effect h
  obtain rfl := Journal.readLossHistory_losses chained
  refine .lost _ losses recorded (by rw [frame]) (fun empty => ?_) (fun nonempty => ?_)
  · obtain ⟨_, _, _, notAborted, _⟩ := Journal.lossBase_headless (Journal.read_headless empty read) based
    exact notAborted
  · obtain ⟨old, last, _, rfl⟩ | ⟨_, _, empty, _⟩ |
      ⟨s, prev, _, _, _, _, last, _, _, _, aborted, _⟩ := outcome
    · exact absurd losses (by simp)
    · exact absurd empty nonempty
    · exact ⟨request, token, now, policy, prev, s, rfl, last, aborted⟩

theorem Call.outcome {burnt : List Identity} {c : Call} (lineal : j.Lineal E burnt)
    (h : c.run E trust j = .ok j') : Outcome E c j j' := by
  have positive := JournalScope.validate_positive lineal.scopeValid
  obtain ⟨_, _, _, _, _, rfl, decided⟩ | ⟨loss, table, _, _, _, unrecorded, _⟩ :=
    c.run_cases positive h
  · exact decideLoss_outcome lineal decided
  have losses : j'.losses E = j.losses E := by rw [Journal.losses, Journal.losses, loss, table]
  have same : j'.loss.join = none ↔ j.loss.join = none := by rw [loss]
  cases c with
  | transition c =>
    obtain ⟨_, _, _, _, rfl, _⟩ := c.run_frame positive h
    exact .quiet losses same rfl
  | decideLoss request token now policy =>
    obtain ⟨committed, decided⟩ := fst_eq_ok.mp h
    exact decideLoss_outcome lineal decided
  | decideLossSuccessor request token now policy =>
    obtain ⟨c, decided⟩ := fst_eq_ok.mp h
    obtain ⟨_, _, _, _, _, _, _, ⟨_, _, _, _, rfl⟩ | ⟨_, _, rfl⟩⟩ :=
      Journal.decideLossSuccessor_effect decided
    all_goals exact .quiet losses same rfl
  | acknowledgeLossSuccessor decision member policy =>
    obtain ⟨_, _, _, _, _, rfl | ⟨_, rfl⟩⟩ := Journal.acknowledgeLossSuccessor_effect h
    all_goals exact .quiet losses same rfl
  | completeLossSuccessor decision id policy =>
    obtain ⟨_, _, _, _, _, ⟨rfl, _⟩ | ⟨_, rfl⟩⟩ := Journal.completeLossSuccessor_effect h
    all_goals exact .quiet losses same rfl
  | abortLossSuccessor cancellation token now policy =>
    obtain ⟨c, aborted⟩ := fst_eq_ok.mp h
    obtain ⟨_, parent, founded, rfl | ⟨notAborted, _, _, _, _, _, _, rfl⟩⟩ :=
      Journal.abortLossSuccessor_effect aborted
    · exact .quiet losses same rfl
    · obtain ⟨cell, present, _⟩ := Journal.readParent_eq_some founded
      refine .aborted unrecorded losses (same.mpr unrecorded) notAborted ?_ ?_
      · simp
      · simp [present]

def lossesAt (E : Env T) (forest : List (Branch T)) (i : ℕ) : List LossRecord :=
  (forest[i]?.map fun b => b.journal.losses E).getD []

/-- What the journals of a path burnt. -/
def burntAlong (E : Env T) (forest : List (Branch T)) (path : List ℕ) : List Identity :=
  path.flatMap fun i => retiredBy (lossesAt E forest i)

/-- An aborted successor: nothing is decided on it again. -/
structure Journal.Fallen (E : Env T) (j : Journal T) : Prop where
  lineal : ∃ burnt, j.Lineal E burnt
  founded : j.parent ≠ none
  unrecorded : j.loss.join = none
  aborted : j.successorAbort.join ≠ none

/-- The shape of a forest: `spine` is the path of journals without an abort, each but the
first founded on the effective loss of the one before. -/
structure Grown (E : Env T) (forest : List (Branch T)) (spine : List ℕ) : Prop where
  root : spine.head? = some 0
  distinct : spine.Nodup
  origin : ∀ b, forest[0]? = some b → b.journal.parent = none ∧ b.source = none
  linked : ∀ (front : List ℕ) (i k : ℕ) (rest : List ℕ), spine = front ++ i :: k :: rest →
    ∃ (b : Branch T) (r : LossRecord), forest[k]? = some b ∧ (lossesAt E forest i).getLast? = some r ∧
      b.source = some (i, r.request)
  lineal : ∀ (front : List ℕ) (i : ℕ) (rest : List ℕ) (b : Branch T), spine = front ++ i :: rest →
    forest[i]? = some b → b.journal.Lineal E (burntAlong E forest front)
  upright : ∀ i ∈ spine, ∃ b, forest[i]? = some b ∧ b.journal.successorAbort.join = none
  fallen : ∀ (i : ℕ) (b : Branch T), forest[i]? = some b → i ∉ spine → b.journal.Fallen E
  sourced : ∀ (k : ℕ) (b : Branch T) (i : ℕ) (q : LossRequest), forest[k]? = some b →
    b.source = some (i, q) → i ∈ spine ∧ b.journal.scope.membership = q.replacementMembership ∧
      ∃ r ∈ lossesAt E forest i, r.request = q
  single : ∀ (k k' : ℕ) (b b' : Branch T), forest[k]? = some b → forest[k']? = some b' →
    b.source = b'.source → k = k'
  memberships : ∀ (k k' : ℕ) (b b' : Branch T), forest[k]? = some b → forest[k']? = some b' →
    b.journal.scope.membership = b'.journal.scope.membership → k = k'

variable {forest : List (Branch T)} {b : Branch T} {i k : ℕ} {spine front rest : List ℕ}

theorem lossesAt_of_place (place : forest[i]? = some b) :
    lossesAt E forest i = b.journal.losses E := by
  simp [lossesAt, place]

theorem burntAlong_congr (same : ∀ k ∈ front, lossesAt E forest' k = lossesAt E forest k) :
    burntAlong E forest' front = burntAlong E forest front := by
  refine List.flatMap_congr fun k mem => ?_
  rw [same k mem]

theorem lookup_set {c : Branch T} (found : (forest.set i b')[k]? = some c) :
    (k = i ∧ c = b') ∨ (k ≠ i ∧ forest[k]? = some c) := by
  by_cases same : i = k
  · subst same
    rw [List.getElem?_set_self'] at found
    obtain ⟨_, _, rfl⟩ := Option.map_eq_some_iff.mp found
    exact .inl ⟨rfl, rfl⟩
  · rw [List.getElem?_set_ne same] at found
    exact .inr ⟨fun h => same h.symm, found⟩

theorem lookup_replaced (place : forest[i]? = some b) : (forest.set i b')[i]? = some b' := by
  rw [List.getElem?_set_self', place]
  rfl

theorem lookup_kept (place : forest[i]? = some b)
    (scope : j'.scope = b.journal.scope) (parent : j'.parent = b.journal.parent) (k : ℕ)
    (c : Branch T) (found : (forest.set i { b with journal := j' })[k]? = some c) :
    ∃ c₀ : Branch T, forest[k]? = some c₀ ∧ c.source = c₀.source ∧
      c.journal.scope = c₀.journal.scope ∧ c.journal.parent = c₀.journal.parent := by
  obtain ⟨rfl, rfl⟩ | ⟨_, found⟩ := lookup_set found
  · exact ⟨b, place, rfl, scope, parent⟩
  · exact ⟨c, found, rfl, rfl, rfl⟩

theorem lossesAt_set (place : forest[i]? = some b) (k : ℕ) :
    lossesAt E (forest.set i { b with journal := j' }) k =
      if k = i then j'.losses E else lossesAt E forest k := by
  split_ifs with same
  · rw [same, lossesAt_of_place (lookup_replaced place)]
  · rw [lossesAt, lossesAt, List.getElem?_set_ne fun h => same h.symm]

theorem lookup_append {c : Branch T} (found : (forest ++ [b'])[k]? = some c) :
    (k = forest.length ∧ c = b') ∨ (k < forest.length ∧ forest[k]? = some c) := by
  rw [List.getElem?_append] at found
  split_ifs at found with below
  · exact .inr ⟨below, found⟩
  · have here : k - forest.length = 0 := by
      by_contra other
      simp [other] at found
    refine .inl ⟨by omega, ?_⟩
    simpa [here] using found.symm

namespace Grown

variable (grown : Grown E forest spine)
include grown

theorem anyLineal (place : forest[i]? = some b) : ∃ burnt, b.journal.Lineal E burnt := by
  by_cases mem : i ∈ spine
  · obtain ⟨front, rest, split⟩ := List.append_of_mem mem
    exact ⟨_, grown.lineal front i rest b split place⟩
  · exact (grown.fallen i b place mem).lineal

theorem last_of_unrecorded (split : spine = front ++ i :: rest) (place : forest[i]? = some b)
    (unrecorded : b.journal.losses E = []) : rest = [] := by
  cases rest with
  | nil => rfl
  | cons k rest =>
    obtain ⟨_, r, _, last, _⟩ := grown.linked front i k rest split
    rw [lossesAt_of_place place, unrecorded] at last
    cases last

theorem last_of_vacant (split : spine = front ++ i :: rest)
    (last : (lossesAt E forest i).getLast? = some r)
    (vacant : ∀ k ∈ spine, ∀ b, forest[k]? = some b → b.source ≠ some (i, r.request)) :
    rest = [] := by
  cases rest with
  | nil => rfl
  | cons k rest =>
    obtain ⟨c, r', place, last', source⟩ := grown.linked front i k rest split
    obtain rfl := Option.mem_unique last last'
    exact absurd source (vacant k (by simp [split]) c place)

/-- A call that records no abort leaves the path as it is, provided it records a loss
only at the end. -/
theorem advance (place : forest[i]? = some b) (scope : j'.scope = b.journal.scope)
    (parent : j'.parent = b.journal.parent) (abort : j'.successorAbort = b.journal.successorAbort)
    (kept : ∀ r ∈ b.journal.losses E, r ∈ j'.losses E)
    (lineal : ∀ burnt, b.journal.Lineal E burnt → j'.Lineal E burnt)
    (inner : ∀ front k rest, spine = front ++ i :: k :: rest → j'.losses E = b.journal.losses E)
    (outer : i ∉ spine → j'.loss.join = none) :
    Grown E (forest.set i { b with journal := j' }) spine := by
  have old := lookup_kept place scope parent
  have new : ∀ (k : ℕ) (c₀ : Branch T), forest[k]? = some c₀ → ∃ c : Branch T,
      (forest.set i { b with journal := j' })[k]? = some c ∧ c.source = c₀.source ∧
        c.journal.successorAbort = c₀.journal.successorAbort := by
    intro k c₀ found
    by_cases same : i = k
    · subst same
      obtain rfl := Option.mem_unique place found
      exact ⟨_, lookup_replaced place, rfl, abort⟩
    · exact ⟨c₀, by rw [List.getElem?_set_ne same, found], rfl, rfl⟩
  have before : ∀ front k c rest, spine = front ++ k :: c :: rest →
      lossesAt E (forest.set i { b with journal := j' }) k = lossesAt E forest k := by
    intro front k c rest split
    rw [lossesAt_set place]
    split_ifs with same
    · rw [inner front c rest (same ▸ split), same, lossesAt_of_place place]
    · rfl
  refine ⟨grown.root, grown.distinct, ?_, ?_, ?_, ?_, ?_, ?_, ?_, ?_⟩
  · intro c found
    obtain ⟨c₀, found₀, source, _, parent⟩ := old 0 c found
    rw [source, parent]
    exact grown.origin c₀ found₀
  · intro front k c rest split
    obtain ⟨b₀, r, found₀, last, source₀⟩ := grown.linked front k c rest split
    obtain ⟨b₁, found, source, _⟩ := new c b₀ found₀
    refine ⟨b₁, r, found, ?_, source.trans source₀⟩
    rw [before front k c rest split]
    exact last
  · intro front k rest c split found
    have burnt : burntAlong E (forest.set i { b with journal := j' }) front =
        burntAlong E forest front := by
      refine burntAlong_congr fun m mem => ?_
      obtain ⟨front₁, front₂, rfl⟩ := List.append_of_mem mem
      cases front₂ with
      | nil => exact before front₁ m k rest (by simp [split])
      | cons next more => exact before front₁ m next (more ++ k :: rest) (by simp [split])
    rw [burnt]
    obtain ⟨rfl, rfl⟩ | ⟨_, found⟩ := lookup_set found
    · exact lineal _ (grown.lineal front k rest b split place)
    · exact grown.lineal front k rest c split found
  · intro k mem
    obtain ⟨c₀, found₀, standing⟩ := grown.upright k mem
    obtain ⟨c, found, _, same⟩ := new k c₀ found₀
    exact ⟨c, found, same ▸ standing⟩
  · intro k c found absent
    obtain ⟨rfl, rfl⟩ | ⟨_, found⟩ := lookup_set found
    · obtain ⟨⟨burnt, was⟩, founded, _, aborted⟩ := grown.fallen k b place absent
      exact ⟨⟨burnt, lineal burnt was⟩, parent ▸ founded, outer absent, abort ▸ aborted⟩
    · exact grown.fallen k c found absent
  · intro k c m q found source
    obtain ⟨c₀, found₀, source₀, scope₀, _⟩ := old k c found
    obtain ⟨mem, membership, r, inside, same⟩ := grown.sourced k c₀ m q found₀ (source₀ ▸ source)
    refine ⟨mem, scope₀ ▸ membership, r, ?_, same⟩
    rw [lossesAt_set place]
    split_ifs with equal
    · rw [equal, lossesAt_of_place place] at inside
      exact kept r inside
    · exact inside
  · intro k k' c c' found found' same
    obtain ⟨c₀, found₀, source, _⟩ := old k c found
    obtain ⟨c₀', found₀', source', _⟩ := old k' c' found'
    exact grown.single k k' c₀ c₀' found₀ found₀' (source ▸ source' ▸ same)
  · intro k k' c c' found found' same
    obtain ⟨c₀, found₀, _, scope, _⟩ := old k c found
    obtain ⟨c₀', found₀', _, scope', _⟩ := old k' c' found'
    exact grown.memberships k k' c₀ c₀' found₀ found₀' (scope ▸ scope' ▸ same)

theorem fall (place : forest[i]? = some b) (split : spine = front ++ [i])
    (scope : j'.scope = b.journal.scope) (parent : j'.parent = b.journal.parent)
    (losses : j'.losses E = b.journal.losses E) (unrecorded : b.journal.losses E = [])
    (fallen : j'.Fallen E) : Grown E (forest.set i { b with journal := j' }) front := by
  subst split
  have old := lookup_kept place scope parent
  have same : ∀ k, lossesAt E (forest.set i { b with journal := j' }) k = lossesAt E forest k := by
    intro k
    rw [lossesAt_set place]
    split_ifs with equal
    · rw [losses, equal, lossesAt_of_place place]
    · rfl
  have outside : i ∉ front := by
    have distinct := grown.distinct
    rw [← List.concat_eq_append, List.nodup_concat] at distinct
    exact distinct.1
  have inside : ∀ k ∈ front, (forest.set i { b with journal := j' })[k]? = forest[k]? := by
    intro k mem
    exact List.getElem?_set_ne fun equal : i = k => outside (equal ▸ mem)
  refine ⟨?_, grown.distinct.of_append_left, ?_, ?_, ?_, ?_, ?_, ?_, ?_, ?_⟩
  · have root := grown.root
    cases front with
    | nil =>
      obtain rfl : i = 0 := by simpa using root
      exact absurd (parent.trans (grown.origin b place).1) fallen.founded
    | cons first more => simpa using root
  · intro c found
    obtain ⟨c₀, found₀, source, _, parent⟩ := old 0 c found
    rw [source, parent]
    exact grown.origin c₀ found₀
  · intro front' k c rest split
    rw [same, inside c (by simp [split])]
    exact grown.linked front' k c (rest ++ [i]) (by simp [split])
  · intro front' k rest c split found
    rw [inside k (by simp [split])] at found
    rw [burntAlong_congr fun k _ => same k]
    exact grown.lineal front' k (rest ++ [i]) c (by simp [split]) found
  · intro k mem
    rw [inside k mem]
    exact grown.upright k (by simp [mem])
  · intro k c found absent
    obtain ⟨rfl, rfl⟩ | ⟨other, found⟩ := lookup_set found
    · exact fallen
    · exact grown.fallen k c found (by simp [absent, other])
  · intro k c m q found source
    obtain ⟨c₀, found₀, source₀, scope₀, _⟩ := old k c found
    obtain ⟨mem, membership, r, lost, named⟩ := grown.sourced k c₀ m q found₀ (source₀ ▸ source)
    refine ⟨?_, scope₀ ▸ membership, r, same m ▸ lost, named⟩
    rcases List.mem_append.mp mem with mem | last
    · exact mem
    · obtain rfl := List.mem_singleton.mp last
      rw [lossesAt_of_place place, unrecorded] at lost
      cases lost
  · intro k k' c c' found found' equal
    obtain ⟨c₀, found₀, source, _⟩ := old k c found
    obtain ⟨c₀', found₀', source', _⟩ := old k' c' found'
    exact grown.single k k' c₀ c₀' found₀ found₀' (source ▸ source' ▸ equal)
  · intro k k' c c' found found' equal
    obtain ⟨c₀, found₀, _, scope, _⟩ := old k c found
    obtain ⟨c₀', found₀', _, scope', _⟩ := old k' c' found'
    exact grown.memberships k k' c₀ c₀' found₀ found₀' (scope ▸ scope' ▸ equal)

theorem placed (mem : i ∈ spine) : i < forest.length := by
  obtain ⟨b, place, _⟩ := grown.upright i mem
  exact (List.getElem?_eq_some_iff.mp place).1

theorem extend {this : Journal T} (split : spine = front ++ [i])
    (last : (lossesAt E forest i).getLast? = some r)
    (lineal : this.Lineal E (burntAlong E forest spine))
    (upright : this.successorAbort.join = none)
    (named : this.scope.membership = r.request.replacementMembership)
    (single : ∀ c ∈ forest, c.source ≠ some (i, r.request))
    (fresh : ∀ c ∈ forest, c.journal.scope.membership ≠ this.scope.membership) :
    Grown E (forest ++ [⟨this, some (i, r.request)⟩]) (spine ++ [forest.length]) := by
  have here : (forest ++ [⟨this, some (i, r.request)⟩])[forest.length]? =
      some ⟨this, some (i, r.request)⟩ := by simp
  have inside : ∀ k ∈ spine,
      (forest ++ [⟨this, some (i, r.request)⟩])[k]? = forest[k]? := by
    intro k mem
    exact List.getElem?_append_left (grown.placed mem)
  have same : ∀ k ∈ spine,
      lossesAt E (forest ++ [⟨this, some (i, r.request)⟩]) k = lossesAt E forest k := by
    intro k mem
    rw [lossesAt, inside k mem, lossesAt]
  have tip : i ∈ spine := by simp [split]
  have origin : 0 ∈ spine := List.mem_of_mem_head? grown.root
  refine ⟨?_, ?_, ?_, ?_, ?_, ?_, ?_, ?_, ?_, ?_⟩
  · rw [List.head?_append, grown.root]
    rfl
  · rw [← List.concat_eq_append, List.nodup_concat]
    exact ⟨fun mem => absurd (grown.placed mem) (lt_irrefl _), grown.distinct⟩
  · intro c found
    rw [inside 0 origin] at found
    exact grown.origin c found
  · intro front' m k rest split'
    rcases List.eq_nil_or_concat' rest with rfl | ⟨rest', n, rfl⟩
    · have ends : spine ++ [forest.length] = (front' ++ [m]) ++ [k] := by simp [split']
      obtain ⟨before, final⟩ := List.append_inj' ends rfl
      obtain rfl : forest.length = k := List.singleton_inj.mp final
      obtain rfl : i = m := by
        rw [split] at before
        exact List.singleton_inj.mp (List.append_inj' before rfl).2
      exact ⟨_, r, here, by rw [same i tip, last], rfl⟩
    · have ends : spine ++ [forest.length] = (front' ++ m :: k :: rest') ++ [n] := by simp [split']
      obtain ⟨before, _⟩ := List.append_inj' ends rfl
      rw [inside k (by simp [before]), same m (by simp [before])]
      exact grown.linked front' m k rest' before
  · intro front' m rest c split' found
    rcases List.eq_nil_or_concat' rest with rfl | ⟨rest', n, rfl⟩
    · obtain ⟨before, final⟩ := List.append_inj' split' rfl
      obtain rfl : forest.length = m := List.singleton_inj.mp final
      obtain rfl := Option.mem_unique here found
      rw [← before, burntAlong_congr same]
      exact lineal
    · have ends : spine ++ [forest.length] = (front' ++ m :: rest') ++ [n] := by simp [split']
      obtain ⟨before, _⟩ := List.append_inj' ends rfl
      rw [inside m (by simp [before])] at found
      rw [burntAlong_congr fun k mem => same k (by simp [before, mem])]
      exact grown.lineal front' m rest' c before found
  · intro k mem
    rcases List.mem_append.mp mem with mem | new
    · rw [inside k mem]
      exact grown.upright k mem
    · obtain rfl := List.mem_singleton.mp new
      exact ⟨_, here, upright⟩
  · intro k c found absent
    obtain ⟨rfl, rfl⟩ | ⟨_, found⟩ := lookup_append found
    · exact absurd (by simp) absent
    · exact grown.fallen k c found fun mem => absent (by simp [mem])
  · intro k c m q found source
    obtain ⟨rfl, rfl⟩ | ⟨_, found⟩ := lookup_append found
    · obtain ⟨rfl, rfl⟩ := Prod.mk.inj (Option.some.inj source)
      refine ⟨by simp [tip], named, r, ?_, rfl⟩
      rw [same i tip]
      exact List.mem_of_getLast? last
    · obtain ⟨mem, membership, lost⟩ := grown.sourced k c m q found source
      rw [same m mem]
      exact ⟨by simp [mem], membership, lost⟩
  · intro k k' c c' found found' equal
    obtain ⟨rfl, rfl⟩ | ⟨_, found⟩ := lookup_append found <;>
      obtain ⟨rfl, rfl⟩ | ⟨_, found'⟩ := lookup_append found'
    · rfl
    · exact absurd equal.symm (single c' (List.mem_of_getElem? found'))
    · exact absurd equal (single c (List.mem_of_getElem? found))
    · exact grown.single k k' c c' found found' equal
  · intro k k' c c' found found' equal
    obtain ⟨rfl, rfl⟩ | ⟨_, found⟩ := lookup_append found <;>
      obtain ⟨rfl, rfl⟩ | ⟨_, found'⟩ := lookup_append found'
    · rfl
    · exact absurd equal.symm (fresh c' (List.mem_of_getElem? found'))
    · exact absurd equal (fresh c (List.mem_of_getElem? found))
    · exact grown.memberships k k' c c' found found' equal

theorem next (split : spine = front ++ [i]) (mem : k ∈ front) : ∃ m ∈ spine,
    ∃ (c : Branch T) (r : LossRecord), forest[m]? = some c ∧
      (lossesAt E forest k).getLast? = some r ∧ c.source = some (k, r.request) := by
  obtain ⟨before, rest, rfl⟩ := List.append_of_mem mem
  cases rest with
  | nil =>
    obtain ⟨c, r, found⟩ := grown.linked before k i [] (by simp [split])
    exact ⟨i, by simp [split], c, r, found⟩
  | cons m rest =>
    obtain ⟨c, r, found⟩ := grown.linked before k m (rest ++ [i]) (by simp [split])
    exact ⟨m, by simp [split], c, r, found⟩

/-- The replacement membership of an effective loss is the membership of no journal yet. -/
theorem fresh (split : spine = front ++ [i]) (place : forest[i]? = some b)
    (last : (lossesAt E forest i).getLast? = some r)
    (single : ∀ c ∈ forest, c.source ≠ some (i, r.request)) :
    ∀ c ∈ forest, c.journal.scope.membership ≠ r.request.replacementMembership := by
  intro c mem
  have lineal := grown.lineal front i [] b split place
  rw [lossesAt_of_place place] at last
  have recorded := List.mem_of_getLast? last
  have unburnt : ∀ k ∈ front, ∀ id ∈ retiredBy (lossesAt E forest k),
      id.membership ≠ r.request.replacementMembership := by
    intro k inside id burnt
    exact (lineal.fresh r recorded id (List.mem_flatMap.mpr ⟨k, inside, burnt⟩)).2.2.symm
  obtain ⟨k, found⟩ := List.mem_iff_getElem?.mp mem
  by_cases on : k ∈ spine
  · rcases List.mem_append.mp (split ▸ on) with inside | tip
    · obtain ⟨_, _, _, lost, _, final, _⟩ := grown.next split inside
      obtain ⟨before, rest, rfl⟩ := List.append_of_mem inside
      have own := grown.lineal before k (rest ++ [i]) c (by simp [split]) found
      rw [lossesAt_of_place found] at final
      rw [← own.membership lost (List.mem_of_getLast? final)]
      refine unburnt k inside lost.request.lost (List.mem_append_left _ (List.mem_map.mpr ?_))
      rw [lossesAt_of_place found]
      exact ⟨lost, List.mem_of_getLast? final, rfl⟩
    · obtain rfl := List.mem_singleton.mp tip
      obtain rfl := Option.mem_unique place found
      rw [← lineal.membership r recorded]
      exact (lineal.wellFormed r recorded).replacement_lost.2.2.symm
  · obtain ⟨b₀, place₀, _⟩ := grown.upright 0 (List.mem_of_mem_head? grown.root)
    match source : c.source with
    | none =>
      have same := grown.single k 0 c b₀ found place₀ (source.trans (grown.origin b₀ place₀).2.symm)
      exact absurd (same ▸ List.mem_of_mem_head? grown.root) on
    | some (m, q) =>
      obtain ⟨spined, membership, lost, inside, rfl⟩ := grown.sourced k c m q found source
      rw [membership]
      rcases List.mem_append.mp (split ▸ spined) with front | tip
      · obtain ⟨m', on', c', final, found', last', source'⟩ := grown.next split front
        refine unburnt m front lost.request.replacement
          (List.mem_append_right _ (List.mem_map.mpr ⟨lost, ?_, rfl⟩))
        obtain ⟨earlier, whole⟩ := List.getLast?_eq_some_iff.mp last'
        rw [whole, List.dropLast_concat]
        rw [whole, List.mem_append, List.mem_singleton] at inside
        rcases inside with inside | rfl
        · exact inside
        · have same := grown.single k m' c c' found found' (source.trans source'.symm)
          exact absurd (same ▸ on') on
      · obtain rfl := List.mem_singleton.mp tip
        rw [lossesAt_of_place place] at inside
        have apart := lineal.apart
        obtain ⟨earlier, whole⟩ := List.getLast?_eq_some_iff.mp last
        rw [whole, List.mem_append, List.mem_singleton] at inside
        rw [whole, List.pairwise_append] at apart
        rcases inside with inside | rfl
        · exact (apart.2.2 lost inside r (by simp)).2.2.symm
        · exact absurd source (single c mem)

theorem history_of_aborted (place : forest[i]? = some b)
    (aborted : b.journal.successorAbort.join ≠ none) : b.journal.history = [] := by
  have absent : i ∉ spine := by
    intro mem
    obtain ⟨b', place', standing⟩ := grown.upright i mem
    obtain rfl := Option.mem_unique place place'
    exact aborted standing
  obtain ⟨⟨burnt, lineal⟩, founded, _⟩ := grown.fallen i b place absent
  obtain ⟨root, _⟩ | ⟨_, _, _, _, _, empty⟩ := lineal.founded
  · exact absurd root founded
  · exact empty

theorem last_of_fetchable (place : forest[i]? = some b)
    (fetchable : b.journal.Fetchable E membership) : spine.getLast? = some i := by
  obtain ⟨_, live, standing⟩ := fetchable.open
  have mem : i ∈ spine := by
    by_contra absent
    have aborted := (grown.fallen i b place absent).aborted
    exact aborted (standing (grown.history_of_aborted place aborted))
  obtain ⟨front, rest, split⟩ := List.append_of_mem mem
  obtain rfl := grown.last_of_unrecorded split place (Journal.losses_of_none live)
  simp [split]

theorem call {c : Call} (place : forest[i]? = some b) (honest : Honest E forest i c)
    (ran : c.run E trust b.journal = .ok j') :
    ∃ spine', Grown E (forest.set i { b with journal := j' }) spine' := by
  obtain ⟨burnt, lineal⟩ := grown.anyLineal place
  obtain ⟨scope, parent⟩ := c.run_scope (JournalScope.validate_positive lineal.scopeValid) ran
  have run : ∀ burnt, b.journal.Lineal E burnt → j'.Lineal E burnt := fun _ h => h.run ran
  cases c.outcome lineal ran with
  | quiet losses loss abort =>
    refine ⟨spine, grown.advance place scope parent abort ?_ run (fun _ _ _ _ => losses) ?_⟩
    · rw [losses]
      exact fun _ => id
    · exact fun absent => loss.mpr (grown.fallen i b place absent).unrecorded
  | lost r losses recorded abort upright superseded =>
    have mem : i ∈ spine := by
      by_contra absent
      have aborted := (grown.fallen i b place absent).aborted
      exact aborted (upright (grown.history_of_aborted place aborted))
    obtain ⟨front, rest, split⟩ := List.append_of_mem mem
    have final : rest = [] := by
      by_cases first : b.journal.losses E = []
      · exact grown.last_of_unrecorded split place first
      · obtain ⟨_, _, _, _, prev, s, rfl, last, yes⟩ := superseded first
        refine grown.last_of_vacant split (lossesAt_of_place place ▸ last) fun k on c found source => ?_
        obtain ⟨c', inside, source', cell, a, aborted, _⟩ := honest _ _ s yes
        obtain ⟨k', found'⟩ := List.mem_iff_getElem?.mp inside
        obtain rfl := grown.single k k' c c' found found' (source.trans source'.symm)
        obtain rfl := Option.mem_unique found found'
        obtain ⟨c₀, found₀, standing⟩ := grown.upright k on
        obtain rfl := Option.mem_unique found found₀
        simp [aborted] at standing
    subst final
    refine ⟨spine, grown.advance place scope parent abort ?_ run ?_ fun absent => absurd mem absent⟩
    · rw [losses]
      exact fun _ => List.mem_append_left _
    · intro front' k rest split'
      have last : (k :: rest).getLast? = some i := by
        have ends : (front' ++ i :: k :: rest).getLast? = some i := by simp [← split', split]
        simpa [List.getLast?_append] using ends
      have distinct := grown.distinct
      rw [split', List.nodup_append, List.nodup_cons] at distinct
      exact absurd (List.mem_of_getLast? last) distinct.2.1.1
  | aborted live losses loss notAborted recorded founded =>
    have unrecorded := Journal.losses_of_none (E := E) live
    have mem : i ∈ spine := by
      by_contra absent
      exact (grown.fallen i b place absent).aborted notAborted
    obtain ⟨front, rest, split⟩ := List.append_of_mem mem
    obtain rfl := grown.last_of_unrecorded split place unrecorded
    exact ⟨front, grown.fall place split scope parent losses unrecorded
      ⟨⟨burnt, run burnt lineal⟩, parent ▸ founded, loss, recorded⟩⟩

theorem found {scope : JournalScope} {file : SuccessorFile T} {this : Journal T}
    {loss : LossRecord} (place : forest[i]? = some b) (vacant : file = .absent ∨ file = .pristine)
    (founded : (b.journal.createLossSuccessor E file scope trust policy).1 = .journal this)
    (effective : b.journal.readRecord E trust = .ok (some loss))
    (single : ∀ b' ∈ forest, b'.source ≠ some (i, loss.request)) :
    ∃ spine', Grown E (forest ++ [⟨this, some (i, loss.request)⟩]) spine' := by
  obtain ⟨chain, read, last⟩ := bind_eq_ok.mp effective
  have last := Except.ok.inj last
  obtain ⟨parent, digest, expected, made⟩ := createLossSuccessor_effect vacant founded
  obtain ⟨_, chain', before, read', last', _, _, membership⟩ := expectedParent_eq_ok expected
  obtain rfl := ok_unique read read'
  obtain rfl := Option.mem_unique last last'
  obtain rfl := Journal.readLossHistory_losses read
  have final : (lossesAt E forest i).getLast? = some parent.loss := by
    rw [lossesAt_of_place place, last]
  have mem : i ∈ spine := by
    by_contra absent
    rw [Journal.losses_of_none (grown.fallen i b place absent).unrecorded] at last
    cases last
  obtain ⟨front, rest, split⟩ := List.append_of_mem mem
  obtain rfl := grown.last_of_vacant split final
    fun k _ c found => single c (List.mem_of_getElem? found)
  have lineal := (grown.lineal front i [] b split place).found vacant founded read
  have own : burntAlong E forest spine =
      burntAlong E forest front ++ retiredBy (b.journal.losses E) := by
    simp [split, burntAlong, lossesAt_of_place place]
  simp only [initializePristineSuccessor, run_ok] at made
  obtain ⟨_, rfl⟩ := made
  refine ⟨_, grown.extend split final (own ▸ lineal) rfl membership single ?_⟩
  rw [membership]
  exact grown.fresh split place final single

end Grown

theorem Grows.grown (step : Grows E forest forest') (grown : ∃ spine, Grown E forest spine) :
    ∃ spine, Grown E forest' spine := by
  obtain ⟨spine, grown⟩ := grown
  cases step with
  | call place honest ran => exact grown.call place honest ran
  | found place vacant founded effective single =>
    exact grown.found place vacant founded effective single

theorem grown_create {scope : JournalScope} (created : Journal.create E scope = .ok j) :
    Grown E [⟨j, none⟩] [0] := by
  have lineal := (Lineage.root created).lineal
  have whole : ∀ (k : ℕ) (c : Branch T), [⟨j, none⟩][k]? = some c → k = 0 ∧ c = ⟨j, none⟩ := by
    intro k c found
    obtain ⟨below, rfl⟩ := List.getElem?_eq_some_iff.mp found
    obtain rfl : k = 0 := by simpa using below
    exact ⟨rfl, rfl⟩
  simp only [Journal.create, unit_bind_eq_ok, pure_inj] at created
  obtain ⟨_, rfl⟩ := created
  refine ⟨rfl, by simp, ?_, ?_, ?_, ?_, ?_, ?_, ?_, ?_⟩
  · intro b found
    obtain ⟨_, rfl⟩ := whole 0 b found
    exact ⟨rfl, rfl⟩
  · intro front i k rest split
    have length := congrArg List.length split
    simp at length
    omega
  · intro front i rest b split found
    obtain ⟨_, rfl⟩ := whole i b found
    have length := congrArg List.length split
    obtain rfl : front = [] := List.eq_nil_of_length_eq_zero (by simp at length; omega)
    exact lineal
  · intro i mem
    obtain rfl := List.mem_singleton.mp mem
    exact ⟨_, rfl, rfl⟩
  · intro i b found absent
    obtain ⟨rfl, _⟩ := whole i b found
    exact absurd (by simp) absent
  · intro k b i q found source
    obtain ⟨_, rfl⟩ := whole k b found
    cases source
  all_goals
    intro k k' b b' found found' _
    rw [(whole k b found).1, (whole k' b' found').1]

/-- A loss or an abort is recorded. -/
def Journal.Barred (j : Journal T) : Prop :=
  j.loss.join ≠ none ∨ j.successorAbort.join ≠ none

theorem Outcome.barred {c : Call} (outcome : Outcome E c j j') (barred : j.Barred) : j'.Barred := by
  cases outcome with
  | quiet losses loss abort => exact barred.imp (mt loss.mp) (abort ▸ id)
  | lost r losses recorded => exact .inl recorded
  | aborted live losses loss notAborted recorded => exact .inr recorded

theorem Grows.barred (step : Grows E forest forest') (grown : Grown E forest spine)
    (place : forest[k]? = some b) (barred : b.journal.Barred) :
    ∃ b' : Branch T, forest'[k]? = some b' ∧ b'.journal.Barred ∧
      b'.journal.scope.membership = b.journal.scope.membership := by
  cases step with
  | @call i a trust c j' place' honest ran =>
    by_cases same : i = k
    · subst same
      obtain rfl := Option.mem_unique place place'
      obtain ⟨burnt, lineal⟩ := grown.anyLineal place
      obtain ⟨scope, _⟩ := c.run_scope (JournalScope.validate_positive lineal.scopeValid) ran
      exact ⟨_, lookup_replaced place, (c.outcome lineal ran).barred barred, by rw [scope]⟩
    · exact ⟨b, by rw [List.getElem?_set_ne same, place], barred, rfl⟩
  | found =>
    refine ⟨b, ?_, barred, rfl⟩
    rw [List.getElem?_append_left (List.getElem?_eq_some_iff.mp place).1, place]

open Relation (ReflTransGen)

theorem grown_of_run (grown : ∃ spine, Grown E forest spine)
    (run : ReflTransGen (Grows E) forest forest') : ∃ spine, Grown E forest' spine := by
  induction run with
  | refl => exact grown
  | tail _ step ih => exact step.grown ih

theorem barred_of_run (grown : ∃ spine, Grown E forest spine)
    (run : ReflTransGen (Grows E) forest forest') (place : forest[k]? = some b)
    (barred : b.journal.Barred) : ∃ b' : Branch T, forest'[k]? = some b' ∧ b'.journal.Barred ∧
      b'.journal.scope.membership = b.journal.scope.membership := by
  induction run with
  | refl => exact ⟨b, place, barred, rfl⟩
  | tail before step ih =>
    obtain ⟨c, found, barred, same⟩ := ih
    obtain ⟨_, grown⟩ := grown_of_run grown before
    obtain ⟨c', found', barred', same'⟩ := step.barred grown found barred
    exact ⟨c', found', barred', same'.trans same⟩

/-- At any time one membership at most has a completed writer proof, and none whose journal
recorded a loss or an abort has one again. -/
theorem one_live_membership {scope : JournalScope} (created : Journal.create E scope = .ok j)
    (run : ReflTransGen (Grows E) [⟨j, none⟩] forest) :
    (∀ b ∈ forest, ∀ b' ∈ forest, ∀ membership membership',
      b.journal.Fetchable E membership → b'.journal.Fetchable E membership' →
        membership = membership') ∧
    ∀ b ∈ forest, b.journal.Barred → ∀ forest', ReflTransGen (Grows E) forest forest' →
      ∀ b' ∈ forest', ¬b'.journal.Fetchable E b.journal.scope.membership := by
  have whole := grown_of_run ⟨[0], grown_create created⟩ run
  refine ⟨fun b mem b' mem' m m' fetchable fetchable' => ?_,
    fun b mem barred forest' run' b' mem' fetchable => ?_⟩
  · obtain ⟨spine, grown⟩ := whole
    obtain ⟨k, place⟩ := List.mem_iff_getElem?.mp mem
    obtain ⟨k', place'⟩ := List.mem_iff_getElem?.mp mem'
    have last := grown.last_of_fetchable place fetchable
    obtain rfl := Option.mem_unique last (grown.last_of_fetchable place' fetchable')
    obtain rfl := Option.mem_unique place place'
    exact fetchable.open.1.trans fetchable'.open.1.symm
  · obtain ⟨k, place⟩ := List.mem_iff_getElem?.mp mem
    obtain ⟨k', place'⟩ := List.mem_iff_getElem?.mp mem'
    obtain ⟨spine, grown⟩ := grown_of_run whole run'
    obtain ⟨c, found, barred, same⟩ := barred_of_run whole run' place barred
    obtain ⟨own, live, standing⟩ := fetchable.open
    obtain rfl := grown.memberships k k' c b' found place' (same.trans own)
    obtain rfl := Option.mem_unique found place'
    rcases barred with lost | aborted
    · exact lost live
    · exact aborted (standing (grown.history_of_aborted found aborted))

namespace Sample

theorem grows_runs {calls : List Call} {forest : List (Branch fun α => α)} {i : ℕ}
    {b : Branch fun α => α} {j' : Journal fun α => α} (place : forest[i]? = some b)
    (honest : ∀ c ∈ calls, ∀ forest, Honest heirEnv forest i c)
    (ran : runs calls b.journal = some j') :
    ReflTransGen (Grows heirEnv) forest (forest.set i { b with journal := j' }) := by
  induction calls generalizing forest b with
  | nil =>
    obtain rfl := Option.some.inj ran
    obtain ⟨inside, rfl⟩ := List.getElem?_eq_some_iff.mp place
    rw [List.set_getElem_self]
  | cons c calls ih =>
    rw [runs, List.foldlM_cons] at ran
    obtain ⟨next, first, rest⟩ := Option.bind_eq_some_iff.mp ran
    have grown := Grows.call place (honest c (by simp) forest)
      (toOption_eq_some.mp first)
    have here : (forest.set i { b with journal := next })[i]? = some { b with journal := next } :=
      lookup_replaced place
    have later := ih here (fun c mem => honest c (by simp [mem])) rest
    rw [List.set_set] at later
    exact .head grown later

theorem heir_grows : ReflTransGen (Grows heirEnv) [⟨created, none⟩]
    [⟨fenced, none⟩, ⟨heir, some (0, (lossRecord 2).request)⟩] := by
  have root : ReflTransGen (Grows heirEnv) [⟨created, none⟩] [⟨fenced, none⟩] := by
    have place : ([⟨created, none⟩] : List (Branch fun α => α))[0]? = some ⟨created, none⟩ := rfl
    refine grows_runs place (fun c mem forest => ?_) runs_fenced
    simp only [rootCalls, List.mem_cons, List.not_mem_nil, or_false] at mem
    rcases mem with rfl | rfl | rfl | rfl | rfl
    any_goals trivial
    intro _ _ _ yes
    cases yes
  have effective : fenced.readRecord heirEnv trusted = .ok (some (lossRecord 2)) := by decide +kernel
  have found : Grows heirEnv [⟨fenced, none⟩]
      ([⟨fenced, none⟩] ++ [⟨founded, some (0, (lossRecord 2).request)⟩]) :=
    Grows.found (i := 0) rfl (.inl rfl) founded_file effective (by simp)
  have place : ([⟨fenced, none⟩] ++ [⟨founded, some (0, (lossRecord 2).request)⟩] :
      List (Branch fun α => α))[1]? = some ⟨founded, some (0, (lossRecord 2).request)⟩ := rfl
  refine (root.tail found).trans (grows_runs place (fun c mem forest => ?_) runs_heir)
  simp only [heirCalls, List.mem_cons, List.not_mem_nil, or_false] at mem
  rcases mem with rfl | rfl | rfl | rfl
  all_goals trivial

theorem one_live_membership_heir : fenced.Barred ∧ heir.Fetchable heirEnv (mark 3) ∧
    ∀ forest', ReflTransGen (Grows heirEnv)
        [⟨fenced, none⟩, ⟨heir, some (0, (lossRecord 2).request)⟩] forest' →
      ∀ b' ∈ forest', ¬b'.journal.Fetchable heirEnv (mark 1) := by
  have recorded : fenced.loss.join.isSome := by decide +kernel
  have barred : fenced.Barred := .inl (Option.isSome_iff_ne_none.mp recorded)
  have same : fenced.scope.membership = mark 1 := by decide +kernel
  refine ⟨barred, .inr ⟨successor 3, trusted, strict, _, ok_get (by decide +kernel), rfl⟩, ?_⟩
  have later := (one_live_membership (E := heirEnv) create_created heir_grows).2 ⟨fenced, none⟩
    (by simp) barred
  rw [same] at later
  exact later

end Sample

end TerrapiVault.Recovery
