import TerrapiVault.Recovery.Retirement

/-! The format marker of the scope row along the calls on one journal file. A call on a
journal is one transaction: failed or cut short, it leaves the journal it found or the one it
wrote. `create` is none, and can stop after each of its statements. -/
namespace TerrapiVault.Recovery

open Relation (ReflTransGen)

variable {T : Type → Type} {E : Env T} {trust : Trust} {start j j' : Journal T}

/-- A file that `create` works on. -/
structure Draft (T : Type → Type) where
  tables : List String := []
  stored : Option (T StoredScope) := none
  head : Option ℕ := none

namespace Draft

/-- The statements of `create`, each a transaction of its own. -/
def statements (E : Env T) (scope : JournalScope) : List (Draft T → Draft T) :=
  ["transition_scope", "transition_head", "transition_history"].map
      (fun name d => { d with tables := d.tables ++ [name] }) ++
    [fun d => { d with stored := some (E.encode ⟨scope, none⟩) },
      fun d => { d with head := some (scope.initialRevision - 1) }]

/-- What a `create` that stops after `n` statements leaves. -/
def after (E : Env T) (scope : JournalScope) (n : ℕ) : Draft T :=
  ((statements E scope).take n).foldl (fun d run => run d) {}

def formatTwoState (d : Draft T) : Bool :=
  d.tables.any
    (· ∈ ["transition_abort", "transition_loss_chain", "transition_loss_successor_abort"])

/-- The journal an open finds in the file: it reads both rows. -/
def journal (d : Draft T) (scope : JournalScope) : Option (Journal T) := do
  let stored ← d.stored
  let head ← d.head
  some { scope := scope, stored := stored, head := head }

/-- A stopped `create` leaves no more than a scope row without the marker, and what can be
opened after it is the new journal. -/
theorem after_cases (scope : JournalScope) (n : ℕ) :
    (after E scope n).formatTwoState = false ∧
    ((after E scope n).stored = none ∨ (after E scope n).stored = some (E.encode ⟨scope, none⟩)) ∧
    ∀ j, scope.validate = .ok () → (after E scope n).journal scope = some j →
      Journal.create E scope = .ok j := by
  match n with
  | 0 | 1 | 2 | 3 => exact ⟨rfl, .inl rfl, fun _ _ found => nomatch found⟩
  | 4 => exact ⟨rfl, .inr rfl, fun _ _ found => nomatch found⟩
  | n + 5 =>
    have whole : after E scope (n + 5) = after E scope 5 := by simp [after, statements]
    rw [whole]
    refine ⟨rfl, .inr rfl, fun j valid found => ?_⟩
    rw [← Option.some.inj found, Journal.create, valid]
    rfl

end Draft

/-- The two ways a journal file comes to be. -/
inductive Journal.Founded (E : Env T) : Journal T → Prop
  | created {scope : JournalScope} {j : Journal T} (made : Journal.create E scope = .ok j) :
    Founded E j
  | successor {source j : Journal T} {file : SuccessorFile T} {scope : JournalScope}
    {trust : Trust} {policy : LossPolicy} (vacant : file = .absent ∨ file = .pristine)
    (made : (source.createLossSuccessor E file scope trust policy).1 = .journal j) : Founded E j

/-- A call keeps the scope row and the tables an older binary cannot see, or marks the row
and adds to one of them. -/
theorem Call.run_stored {c : Call} (positive : 0 < j.scope.initialRevision)
    (h : c.run E trust j = .ok j') :
    j'.stored = j.stored ∧ j'.formatTwoState = j.formatTwoState ∨
      ∃ marked, j.markJournalFormatTwo E = .ok marked ∧ j'.stored = marked.stored ∧
        j'.formatTwoState = true := by
  cases c with
  | transition c =>
    obtain ⟨_, _, _, _, rfl, ⟨rfl, rfl⟩ | ⟨marked, _, mark, rfl, rfl⟩⟩ := c.run_frame positive h
    · exact .inl ⟨rfl, rfl⟩
    · exact .inr ⟨marked, mark, rfl, by simp [Journal.formatTwoState]⟩
  | decideLoss request token now policy =>
    obtain ⟨c, decided⟩ := fst_eq_ok.mp h
    obtain ⟨_, _, _, _, _, _, _, ⟨_, _, _, rfl⟩ | ⟨_, _, _, _, rfl⟩ |
      ⟨_, _, _, _, marked, _, _, _, _, _, _, mark, rfl⟩⟩ := Journal.decideLoss_effect decided
    · exact .inl ⟨rfl, rfl⟩
    · exact .inl ⟨rfl, rfl⟩
    · exact .inr ⟨marked, mark, rfl, by simp [Journal.formatTwoState]⟩
  | decideLossSuccessor request token now policy =>
    obtain ⟨c, decided⟩ := fst_eq_ok.mp h
    obtain ⟨_, _, _, _, _, _, _, ⟨_, _, _, _, rfl⟩ | ⟨_, _, rfl⟩⟩ :=
      Journal.decideLossSuccessor_effect decided
    all_goals exact .inl ⟨rfl, rfl⟩
  | acknowledgeLossSuccessor decision member policy =>
    obtain ⟨_, _, _, _, _, rfl | ⟨_, rfl⟩⟩ := Journal.acknowledgeLossSuccessor_effect h
    all_goals exact .inl ⟨rfl, rfl⟩
  | completeLossSuccessor decision id policy =>
    obtain ⟨_, _, _, _, _, ⟨rfl, _⟩ | ⟨_, rfl⟩⟩ := Journal.completeLossSuccessor_effect h
    all_goals exact .inl ⟨rfl, rfl⟩
  | abortLossSuccessor cancellation token now policy =>
    obtain ⟨c, aborted⟩ := fst_eq_ok.mp h
    obtain ⟨_, _, _, rfl | ⟨_, _, _, marked, _, _, mark, rfl⟩⟩ :=
      Journal.abortLossSuccessor_effect aborted
    · exact .inl ⟨rfl, rfl⟩
    · exact .inr ⟨marked, mark, rfl, by simp [Journal.formatTwoState]⟩

/-- The scope row of a journal that began as `start`. -/
structure Journal.Labelled (E : Env T) (j start : Journal T) : Prop where
  positive : 0 < j.scope.initialRevision
  decodes : E.decode j.stored =
    some ⟨j.scope, if j.formatTwoState then some journalFormatTwo else none⟩
  untouched : j.formatTwoState = false → j.stored = start.stored

theorem Journal.Founded.labelled (founded : start.Founded E) : start.Labelled E start := by
  have fresh {scope : JournalScope} (valid : scope.validate = .ok ()) (same : start.scope = scope)
      (text : start.stored = E.encode ⟨scope, none⟩) (empty : start.formatTwoState = false) :
      start.Labelled E start := by
    refine ⟨same ▸ JournalScope.validate_positive valid, ?_, fun _ => rfl⟩
    rw [text, E.decode_encode, same, empty]
    rfl
  cases founded with
  | created made =>
    simp only [Journal.create, unit_bind_eq_ok, pure_inj] at made
    obtain ⟨valid, rfl⟩ := made
    exact fresh valid rfl rfl rfl
  | successor vacant made =>
    obtain ⟨parent, _, expected, written⟩ := createLossSuccessor_effect vacant made
    obtain ⟨valid, _⟩ := expectedParent_eq_ok expected
    simp only [initializePristineSuccessor, run_ok] at written
    obtain ⟨_, rfl⟩ := written
    exact fresh valid rfl rfl rfl

theorem Journal.Labelled.run {c : Call} (labelled : j.Labelled E start)
    (h : c.run E trust j = .ok j') :
    j'.Labelled E start ∧ (j.formatTwoState = true → j'.formatTwoState = true) := by
  obtain ⟨scope, _⟩ := c.run_scope labelled.positive h
  obtain ⟨stored, state⟩ | ⟨marked, mark, stored, state⟩ := c.run_stored labelled.positive h
  · refine ⟨⟨scope ▸ labelled.positive, ?_, fun empty => ?_⟩, fun held => state.trans held⟩
    · rw [stored, scope, state, labelled.decodes]
    · rw [stored, labelled.untouched (state ▸ empty)]
  · refine ⟨⟨scope ▸ labelled.positive, ?_, fun empty => ?_⟩, fun _ => state⟩
    · obtain ⟨text, rfl, value, decoded, _, kept⟩ := Journal.markJournalFormatTwo_eq_ok mark
      obtain rfl := Option.mem_unique labelled.decodes decoded
      rw [stored, scope, state]
      rcases kept with ⟨present, rfl⟩ | rfl
      · rw [labelled.decodes]
        cases held : j.formatTwoState <;> simp_all
      · exact E.decode_encode _
    · rw [state] at empty
      cases empty

theorem Journal.Labelled.runs (labelled : j.Labelled E start)
    (run : ReflTransGen (fun a b => ∃ (trust : Trust) (c : Call), c.run E trust a = .ok b) j j') :
    j'.Labelled E start ∧ (j.formatTwoState = true → j'.formatTwoState = true) := by
  induction run with
  | refl => exact ⟨labelled, id⟩
  | tail _ step ih =>
    obtain ⟨trust, c, ran⟩ := step
    obtain ⟨labelled', kept⟩ := ih.1.run ran
    exact ⟨labelled', kept ∘ ih.2⟩

/-- Whatever an older binary cannot see is announced by the marker, which never goes away;
before that the scope row is the one of the creation. A creation that stopped has written that
row or none. -/
theorem format_announced (founded : start.Founded E)
    (before : ReflTransGen (fun a b => ∃ (trust : Trust) (c : Call), c.run E trust a = .ok b)
      start j)
    (after : ReflTransGen (fun a b => ∃ (trust : Trust) (c : Call), c.run E trust a = .ok b)
      j j') :
    (j.formatTwoState = true → E.decode j.stored = some ⟨j.scope, some journalFormatTwo⟩) ∧
    (∀ stored, E.decode j.stored = some stored → stored.marker.isSome →
      ∃ stored', E.decode j'.stored = some stored' ∧ stored'.marker = stored.marker) ∧
    (∃ marker, E.decode j.stored = some ⟨j.scope, marker⟩) ∧
    (j.formatTwoState = false → j.stored = start.stored) ∧
    ∀ scope n, (Draft.after E scope n).formatTwoState = false ∧
      ((Draft.after E scope n).stored = none ∨
        (Draft.after E scope n).stored = some (E.encode ⟨scope, none⟩)) ∧
      ∀ made, scope.validate = .ok () → (Draft.after E scope n).journal scope = some made →
        Journal.create E scope = .ok made := by
  have labelled := (founded.labelled.runs before).1
  obtain ⟨labelled', kept⟩ := labelled.runs after
  refine ⟨fun held => ?_, fun stored decoded present => ?_, ⟨_, labelled.decodes⟩,
    labelled.untouched, Draft.after_cases⟩
  · rw [labelled.decodes, held]
    rfl
  · obtain rfl := Option.mem_unique labelled.decodes decoded
    have held : j.formatTwoState = true := by
      by_contra absent
      simp [absent] at present
    exact ⟨_, labelled'.decodes, by simp [held, kept held]⟩

namespace Sample

theorem format_announced_abort :
    (after (abortion 1) created).formatTwoState = true ∧
    env.decode (after (abortion 1) created).stored =
      some ⟨(after (abortion 1) created).scope, some journalFormatTwo⟩ := by
  have ran : (abortion 1).run env trusted created = .ok (after (abortion 1) created) :=
    run_after (by decide +kernel)
  have held : (after (abortion 1) created).formatTwoState = true := by decide +kernel
  exact ⟨held, (format_announced (.created create_created)
    (.single ⟨trusted, .transition (abortion 1), ran⟩) .refl).1 held⟩

/-- A `create` that stops before its first insert leaves a file without a scope row. -/
theorem format_unscoped : Journal.create env scope = .ok created ∧
    (Draft.after env scope 3).tables = ["transition_scope", "transition_head", "transition_history"] ∧
    (Draft.after env scope 3).stored = none ∧ (Draft.after env scope 5).journal scope = some created :=
  ⟨create_created, rfl, rfl, rfl⟩

end Sample

end TerrapiVault.Recovery
