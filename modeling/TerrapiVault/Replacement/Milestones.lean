import TerrapiVault.Replacement.DecisionRuns

/-! Calls of `Model::step` on one mutable model, and what a write-eligible model has been
through. The accepted calls form a log; a phase or a flag of the model is earned by a
subsequence of that log. -/
namespace TerrapiVault.Replacement

open Replication
open Recovery (Id both)

/-- Calls that write the model in place. An error keeps what was written before it. -/
abbrev InPlace : Type → Type := ExceptT Fault (StateM Model)

abbrev Attempt : Type := Plan × Event

/-- The members of the replacement pair, candidate first. -/
def Plan.pair (p : Plan) (i : Fin 2) : Id := if i = 0 then p.candidate else p.baseline.survivor

namespace Model

/-- `?` on a check that only reads. -/
def check {α : Type} (read : Model → Result α) : InPlace α := fun m => (read m, m)

def write (f : Model → Model) : InPlace Unit := fun m => (.ok (), f m)

def stepEvent (p : Plan) : Event → InPlace Unit
  | .authorize => pure ()
  | .fence proof => do
    check fun _ =>
      ensure (proof = .isolated p.baseline.oldPrimary) "health or wrong instance is not fencing"
    write fun m => { m with phase := m.phase.max .fenced }
  | .seal checkpoint tail => do
    check fun m =>
      ensure (Phase.fenced.rank ≤ m.phase.rank ∧ checkpoint = p.baseline.checkpoint ∧
        tail = .quiescent) "source not fenced, matching and quiescent"
    write fun m => { m with phase := m.phase.max .sourceSealed }
  | .install checkpoint => do
    check fun m =>
      ensure (Phase.sourceSealed.rank ≤ m.phase.rank ∧ checkpoint = p.baseline.checkpoint)
        "candidate does not match sealed source"
    write fun m => { m with phase := m.phase.max .candidateInstalled }
  | .prepare id => do
    let index ← check fun _ => member p id
    check fun m => ensure (m.phase = .candidateInstalled) "installation required"
    write fun m => { m with prepared := Function.update m.prepared index true }
  | .activate id => do
    let index ← check fun _ => member p id
    check fun m => ensure (m.prepared = both true) "both members must be prepared"
    write fun m => { m with active := Function.update m.active index true }

/-- `Model::step` on the model itself. -/
def stepInPlace (p : Plan) (event : Event) : InPlace Unit := do
  check fun m => m.validatePlan p
  if event = .authorize then write fun m => { m with plan := some p }
  else do
    check fun m => ensure (m.plan = some p) "authorization required"
    stepEvent p event

def perform (m : Model) (c : Attempt) : Result Unit × Model := stepInPlace c.1 c.2 m

/-- The state a call leaves, read off the state it returns or the error. -/
def settle (m : Model) : Result Model → Result Unit × Model
  | .ok m' => (.ok (), m')
  | .error e => (.error e, m)

variable {m m' : Model} {p : Plan}

theorem check_bind {α : Type} {read : Model → Result α} {next : α → InPlace Unit}
    {after : α → Result Model} (rest : ∀ a, read m = .ok a → next a m = settle m (after a)) :
    (check read >>= next) m = settle m (read m >>= after) := by
  change (ExceptT.bindCont next (read m)) m = _
  cases found : read m with
  | error e => rfl
  | ok a => exact rest a found

theorem stepEvent_eq (event : Event) : stepEvent p event m = settle m (m.advance p event) := by
  rcases event with _ | proof | ⟨checkpoint, tail⟩ | checkpoint | id | id
  · rfl
  · exact check_bind fun _ _ => rfl
  · exact check_bind fun _ _ => rfl
  · exact check_bind fun _ _ => rfl
  · exact check_bind fun _ _ => check_bind fun _ _ => rfl
  · exact check_bind fun _ _ => check_bind fun _ _ => rfl

/-- Every write is the last action of its call, so a call is its transition or nothing. -/
theorem perform_eq (m : Model) (c : Attempt) : m.perform c = settle m (m.step c.1 c.2) := by
  refine check_bind fun _ _ => ?_
  split
  · rfl
  · exact check_bind fun _ _ => stepEvent_eq c.2

theorem perform_failed {c : Attempt} (failed : (m.perform c).1 ≠ .ok ()) :
    (m.perform c).2 = m := by
  rw [perform_eq] at failed ⊢
  cases stepped : m.step c.1 c.2 with
  | error e => rfl
  | ok m' => exact absurd (by rw [stepped]; rfl) failed

def after (m : Model) (calls : List Attempt) : Model := calls.foldl (fun m c => (m.perform c).2) m

/-- The calls that return `Ok`. -/
def accepted (m : Model) : List Attempt → List Attempt
  | [] => []
  | c :: rest =>
    (if (m.perform c).1 = .ok () then [c] else []) ++ accepted (m.perform c).2 rest

/-- A step relation that holds of every accepted call, with the log of accepted calls. -/
theorem after_invariant {P : Model → List Attempt → Prop}
    (step : ∀ m log c m', P m log → m.step c.1 c.2 = .ok m' → P m' (log ++ [c]))
    (log : List Attempt) (holds : P m log) (calls : List Attempt) :
    P (m.after calls) (log ++ m.accepted calls) := by
  induction calls generalizing m log with
  | nil => simpa [after, accepted] using holds
  | cons c rest ih =>
    rw [after, List.foldl_cons, accepted, ← List.append_assoc]
    refine ih _ ?_
    rw [perform_eq]
    cases stepped : m.step c.1 c.2 with
    | error e => simpa [settle] using holds
    | ok m' => simpa [settle] using step m log c m' holds stepped

variable {event : Event}

/-- What an accepted call did: the plan extends the baseline and is the bound one from then
on, and the rest is the event's own transition. -/
theorem step_eq_ok (stepped : m.step p event = .ok m') :
    m.baseline.Valid ∧ p.Extends m.baseline ∧ (∀ bound ∈ m.plan, bound = p) ∧
      (event = .authorize ∧ m' = { m with plan := some p } ∨
        m.plan = some p ∧ event ≠ .authorize ∧ m.advance p event = .ok m') := by
  simp only [step, validatePlan, Baseline.validate, unit_bind_eq_ok, ensure_eq_ok] at stepped
  obtain ⟨⟨valid, grows, unbound⟩, rest⟩ := stepped
  refine ⟨valid, grows, unbound, ?_⟩
  split at rest
  next first => exact .inl ⟨first, (Except.ok.inj rest).symm⟩
  next first =>
    rw [unit_bind_eq_ok, ensure_eq_ok] at rest
    exact .inr ⟨rest.1, first, rest.2⟩

theorem member_eq_ok {id : Id} {i : Fin 2} (found : member p id = .ok i) : id = p.pair i := by
  rw [member] at found
  split at found
  next first =>
    obtain rfl := Except.ok.inj found
    exact first
  next first =>
    split at found
    next second =>
      obtain rfl := Except.ok.inj found
      exact second
    next => cases found

theorem advance_plan (moved : m.advance p event = .ok m') : m'.plan = m.plan := by
  rcases event with _ | proof | ⟨checkpoint, tail⟩ | checkpoint | id | id <;>
    simp only [advance, bind_eq_ok, pure_inj] at moved
  · rw [← moved]
  all_goals
    obtain ⟨_, _, rest⟩ := moved
    first
      | rw [← rest]
      | obtain ⟨_, _, rest⟩ := rest
        rw [← rest]

/-- The log of a candidate that is fenced, sealed and installed, up to a phase. -/
def reaching (p : Plan) : Phase → List Attempt
  | .restricted => [(p, .authorize)]
  | .fenced => [(p, .authorize), (p, .fence (.isolated p.baseline.oldPrimary))]
  | .sourceSealed => [(p, .authorize), (p, .fence (.isolated p.baseline.oldPrimary)),
    (p, .seal p.baseline.checkpoint .quiescent)]
  | .candidateInstalled => [(p, .authorize), (p, .fence (.isolated p.baseline.oldPrimary)),
    (p, .seal p.baseline.checkpoint .quiescent), (p, .install p.baseline.checkpoint)]

theorem reaching_sublist {a b : Phase} (le : a.rank ≤ b.rank) :
    (reaching p a).Sublist (reaching p b) := by
  cases a <;> cases b <;> simp_all [Phase.rank, reaching]

/-- Both flags of a pair of steps, raised in either order after an earlier log. -/
def Then (before : List Attempt → Prop) (mark : Fin 2 → Attempt) (log : List Attempt) : Prop :=
  ∃ early, before early ∧ ∃ i : Fin 2, log = early ++ [mark i, mark i.rev]

/-- Flags earned by a log: each one after a log in `before`, and both together. -/
structure Raised (before : List Attempt → Prop) (mark : Fin 2 → Attempt) (flag : Fin 2 → Bool)
    (log : List Attempt) : Prop where
  each : ∀ i, flag i = true → ∃ early, before early ∧ (early ++ [mark i]).Sublist log
  pair : flag = both true → ∃ whole, Then before mark whole ∧ whole.Sublist log

namespace Raised

variable {before : List Attempt → Prop} {mark : Fin 2 → Attempt} {flag : Fin 2 → Bool}
  {log : List Attempt}

theorem lowered : Raised before mark (both false) log :=
  ⟨fun i raised => (by cases raised), fun raised => (by cases congrFun raised 0)⟩

theorem more (raised : Raised before mark flag log) (c : Attempt) :
    Raised before mark flag (log ++ [c]) where
  each i set := by
    obtain ⟨early, holds, sub⟩ := raised.each i set
    exact ⟨early, holds, sub.trans (List.sublist_append_left ..)⟩
  pair set := by
    obtain ⟨whole, holds, sub⟩ := raised.pair set
    exact ⟨whole, holds, sub.trans (List.sublist_append_left ..)⟩

theorem raise (raised : Raised before mark flag log) (i : Fin 2) {early : List Attempt}
    (holds : before early) (sub : early.Sublist log) :
    Raised before mark (Function.update flag i true) (log ++ [mark i]) where
  each j set := by
    by_cases same : j = i
    · subst same
      exact ⟨early, holds, sub.append (List.Sublist.refl _)⟩
    · rw [Function.update_of_ne same] at set
      exact (raised.more _).each j set
  pair set := by
    -- The other flag was raised before this call.
    have other : flag i.rev = true := by
      have value := congrFun set i.rev
      rwa [Function.update_of_ne] at value
      rcases Recovery.participant_cases i with rfl | rfl <;> decide
    obtain ⟨first, holds, sub⟩ := raised.each i.rev other
    refine ⟨first ++ [mark i.rev, mark i], ⟨first, holds, i.rev, by rw [Fin.rev_rev]⟩, ?_⟩
    simpa using sub.append (List.Sublist.refl [mark i])

end Raised

def Installed (p : Plan) (log : List Attempt) : Prop := log = reaching p .candidateInstalled

def preparing (p : Plan) (i : Fin 2) : Attempt := (p, .prepare (p.pair i))

def activating (p : Plan) (i : Fin 2) : Attempt := (p, .activate (p.pair i))

/-- Everything the model says is earned by its log of accepted calls. -/
structure Earned (b : Baseline) (m : Model) (log : List Attempt) : Prop where
  baseline : m.baseline = b
  unbound : m.plan = none → m = new b
  bound : ∀ p ∈ m.plan, p.Extends b ∧ (reaching p m.phase).Sublist log ∧
    Raised (Installed p) (preparing p) m.prepared log ∧
    Raised (Then (Installed p) (preparing p)) (activating p) m.active log

namespace Earned

variable {b : Baseline} {log : List Attempt}

theorem new (b : Baseline) : Earned b (new b) [] :=
  ⟨rfl, fun _ => rfl, fun p bound => (by cases bound)⟩

theorem held (earned : Earned b m log) (bound : m.plan = some p) :
    p.Extends b ∧ (reaching p m.phase).Sublist log ∧
      Raised (Installed p) (preparing p) m.prepared log ∧
      Raised (Then (Installed p) (preparing p)) (activating p) m.active log :=
  earned.bound p bound

theorem rise (earned : Earned b m log) (bound : m.plan = some p) {a c : Phase}
    (early : a.rank ≤ m.phase.rank) (last : reaching p c = reaching p a ++ [(p, event)]) :
    Earned b { m with phase := m.phase.max c } (log ++ [(p, event)]) := by
  obtain ⟨grows, reached, prepared, active⟩ := earned.held bound
  refine ⟨earned.baseline, fun free => (by rw [bound] at free; cases free), fun q same => ?_⟩
  obtain rfl : p = q := Option.mem_unique bound same
  refine ⟨grows, ?_, prepared.more _, active.more _⟩
  rw [Phase.max]
  split
  · rw [last]
    exact ((reaching_sublist early).trans reached).append (List.Sublist.refl _)
  · exact reached.trans (List.sublist_append_left ..)

theorem step (m : Model) (log : List Attempt) (c : Attempt) (m' : Model)
    (earned : Earned b m log) (stepped : m.step c.1 c.2 = .ok m') : Earned b m' (log ++ [c]) := by
  obtain ⟨p, event⟩ := c
  obtain ⟨-, grows, unbound, ⟨rfl, rfl⟩ | ⟨bound, other, moved⟩⟩ := step_eq_ok stepped
  · refine ⟨earned.baseline, fun free => (by cases free), fun q same => ?_⟩
    obtain rfl : p = q := Option.some.inj same
    cases free : m.plan with
    | none =>
      obtain rfl := earned.unbound free
      exact ⟨grows, List.sublist_append_right .., .lowered, .lowered⟩
    | some q =>
      obtain rfl := unbound q free
      obtain ⟨grows, reached, prepared, active⟩ := earned.held free
      exact ⟨grows, reached.trans (List.sublist_append_left ..), prepared.more _, active.more _⟩
  obtain ⟨grows, reached, prepared, active⟩ := earned.held bound
  have taken {q : Plan} (same : q ∈ m.plan) : p = q := Option.mem_unique bound same
  have free (P : Prop) (none : m.plan = none) : P := by rw [bound] at none; cases none
  rcases event with _ | proof | ⟨checkpoint, tail⟩ | checkpoint | id | id
  · exact absurd rfl other
  · simp only [advance, unit_bind_eq_ok, ensure_eq_ok, pure_inj] at moved
    obtain ⟨rfl, rfl⟩ := moved
    exact earned.rise bound (a := .restricted) (Nat.zero_le _) rfl
  · simp only [advance, unit_bind_eq_ok, ensure_eq_ok, pure_inj] at moved
    obtain ⟨⟨early, rfl, rfl⟩, rfl⟩ := moved
    exact earned.rise bound early rfl
  · simp only [advance, unit_bind_eq_ok, ensure_eq_ok, pure_inj] at moved
    obtain ⟨⟨early, rfl⟩, rfl⟩ := moved
    exact earned.rise bound early rfl
  · simp only [advance, checked_ok] at moved
    obtain ⟨i, found, installed, rfl⟩ := moved
    obtain rfl := member_eq_ok found
    refine ⟨earned.baseline, free _, fun q same => ?_⟩
    obtain rfl := taken same
    refine ⟨grows, reached.trans (List.sublist_append_left ..), ?_, active.more _⟩
    exact prepared.raise i rfl (installed ▸ reached)
  · simp only [advance, checked_ok] at moved
    obtain ⟨i, found, ready, rfl⟩ := moved
    obtain rfl := member_eq_ok found
    refine ⟨earned.baseline, free _, fun q same => ?_⟩
    obtain rfl := taken same
    obtain ⟨early, holds, sub⟩ := prepared.pair ready
    exact ⟨grows, reached.trans (List.sublist_append_left ..), prepared.more _,
      active.raise i holds sub⟩

theorem of_calls (b : Baseline) (calls : List Attempt) :
    Earned b ((Model.new b).after calls) ((Model.new b).accepted calls) := by
  simpa using after_invariant step [] (new b) calls

end Earned

theorem after_plan {q : Plan} (bound : m.plan = some q) (calls : List Attempt) :
    (m.after calls).plan = some q := by
  refine after_invariant (P := fun m _ => m.plan = some q) ?_ [] bound calls
  rintro m log ⟨p, event⟩ m' bound stepped
  obtain ⟨-, -, same, ⟨rfl, rfl⟩ | ⟨-, -, moved⟩⟩ := step_eq_ok stepped
  · rw [same q bound]
  · rw [advance_plan moved, bound]

/-- The log of a pair that is doubly activated. -/
def milestones (p : Plan) (i j : Fin 2) : List Attempt :=
  reaching p .candidateInstalled ++ [preparing p i, preparing p i.rev] ++
    [activating p j, activating p j.rev]

/-- Only the candidate of the one bound plan is write-eligible, and only after it was fenced,
sealed, installed, prepared and activated in this order. -/
theorem writeEligible_earned (b : Baseline) (calls : List Attempt) :
    (∀ c, (((new b).after calls).perform c).1 ≠ .ok () →
      (((new b).after calls).perform c).2 = (new b).after calls) ∧
    (∀ q more, ((new b).after calls).plan = some q →
      ((new b).after (calls ++ more)).plan = some q) ∧
    ∀ p member, ((new b).after calls).writeEligible p member true = true →
      member = p.candidate ∧ member ≠ b.oldPrimary ∧ member ≠ b.survivor ∧ p.baseline = b ∧
      p.revision = b.revision + 1 ∧
      ∃ i j, (milestones p i j).Sublist ((new b).accepted calls) := by
  refine ⟨fun c => perform_failed, fun q more bound => ?_, fun p member eligible => ?_⟩
  · rw [after, List.foldl_append]
    exact after_plan bound more
  simp only [writeEligible, bothActive, decide_eq_true_eq] at eligible
  obtain ⟨bound, rfl, doubly, -⟩ := eligible
  obtain ⟨⟨rfl, -, next, -, -, fresh, other⟩, -, -, active⟩ := (Earned.of_calls b calls).held bound
  obtain ⟨_, ⟨_, ⟨_, rfl, i, rfl⟩, j, rfl⟩, sub⟩ := active.pair doubly
  exact ⟨rfl, fresh, other, rfl, next.symm, i, j, sub⟩

end Model

namespace Sample

/-- The plan run once, with its events repeated and refused in between. -/
def replacing : List Attempt :=
  [(plan, .fence (.isolated baseline.oldPrimary)), (plan, .authorize), (plan, .fence .healthFailed),
    (plan, .fence (.isolated baseline.oldPrimary)), (plan, .seal baseline.checkpoint .quiescent),
    (plan, .activate (plan.pair 1)), (plan, .install baseline.checkpoint),
    (plan, .prepare (plan.pair 1)), (plan, .fence (.isolated baseline.oldPrimary)),
    (plan, .prepare (plan.pair 0)), (plan, .activate (plan.pair 0)), (plan, .activate (plan.pair 1))]

theorem writeEligible_earned_replacing :
    ((Model.new baseline).after replacing).writeEligible plan plan.candidate true = true ∧
      ∃ i j, (Model.milestones plan i j).Sublist ((Model.new baseline).accepted replacing) := by
  have eligible :
      ((Model.new baseline).after replacing).writeEligible plan plan.candidate true = true := by
    decide +kernel
  obtain ⟨-, -, -, -, -, log⟩ :=
    (Model.writeEligible_earned baseline replacing).2.2 plan plan.candidate eligible
  exact ⟨eligible, log⟩

end Sample

end TerrapiVault.Replacement
