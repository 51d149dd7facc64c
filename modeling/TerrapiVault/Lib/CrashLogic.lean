import Mathlib.Data.Nat.Notation

/-! Programs that act on a shared state one atomic step at a time and may be cut
short between any two steps. The environment is a stream of choices; every step
consumes one. A triple names, besides the postcondition, the assertion that holds
wherever the program stops early and the one that holds when it returns an error. -/
namespace TerrapiVault.CrashLogic

variable {σ χ ε α β : Type}

/-- `stopped` is a program cut short; `done` carries the next unused choice. -/
inductive Outcome (σ α : Type) where
  | stopped (state : σ)
  | done (value : α) (state : σ) (next : ℕ)

def Outcome.final : Outcome σ α → σ
  | .stopped state => state
  | .done _ state _ => state

def Outcome.value? : Outcome σ α → Option α
  | .stopped _ => none
  | .done value _ _ => some value

def Script (σ χ ε α : Type) : Type := (ℕ → χ) → ℕ → σ → Outcome σ (Except ε α)

namespace Script

def pure (a : α) : Script σ χ ε α := fun _ n s => .done (.ok a) s n

def throw (e : ε) : Script σ χ ε α := fun _ n s => .done (.error e) s n

def bind (m : Script σ χ ε α) (f : α → Script σ χ ε β) : Script σ χ ε β :=
  fun choices n s =>
    match m choices n s with
    | .stopped s' => .stopped s'
    | .done (.error e) s' n' => .done (.error e) s' n'
    | .done (.ok a) s' n' => f a choices n' s'

instance : Monad (Script σ χ ε) where
  pure := Script.pure
  bind := Script.bind

instance : MonadExceptOf ε (Script σ χ ε) where
  throw := Script.throw
  tryCatch m handler := fun choices n s =>
    match m choices n s with
    | .done (.error e) s' n' => handler e choices n' s'
    | outcome => outcome

/-- Run to completion and hand the error back as a value. -/
def attempt (m : Script σ χ ε α) : Script σ χ ε (Except ε α) := fun choices n s =>
  match m choices n s with
  | .stopped s' => .stopped s'
  | .done r s' n' => .done (.ok r) s' n'

/-- One atomic step; no reply means the process stopped. -/
def step (f : χ → σ → σ × Option (Except ε α)) : Script σ χ ε α := fun choices n s =>
  match f (choices n) s with
  | (s', none) => .stopped s'
  | (s', some r) => .done r s' (n + 1)

/-- A program that never gets further, such as a loop that runs out of fuel. -/
def halt : Script σ χ ε α := fun _ _ s => .stopped s

/-- Read the state without a step. -/
def look (f : σ → α) : Script σ χ ε α := fun _ n s => .done (.ok (f s)) s n

def ofExcept : Except ε α → Script σ χ ε α
  | .ok a => Script.pure a
  | .error e => Script.throw e

/-- A continuation that leaves the state alone is not seen in the final state. -/
theorem bind_final {m : Script σ χ ε α} {f : α → Script σ χ ε β} {choices : ℕ → χ} {n : ℕ} {s : σ}
    (idle : ∀ a s' n', m choices n s = .done (.ok a) s' n' → (f a choices n' s').final = s') :
    ((m >>= f) choices n s).final = (m choices n s).final := by
  change (Script.bind m f choices n s).final = _
  unfold Script.bind
  match outcome : m choices n s with
  | .stopped s' => rfl
  | .done (.ok a) s' n' => exact idle a s' n' outcome
  | .done (.error e) s' n' => rfl

/-- A sequence that returned went through its first program. -/
theorem bind_returned {m : Script σ χ ε α} {f : α → Script σ χ ε β} {choices : ℕ → χ} {n : ℕ}
    {s : σ} {b : β} (value : ((m >>= f) choices n s).value? = some (.ok b)) :
    ∃ a s' n', m choices n s = .done (.ok a) s' n' ∧ (f a choices n' s').value? = some (.ok b) := by
  change (Script.bind m f choices n s).value? = _ at value
  unfold Script.bind at value
  match outcome : m choices n s with
  | .stopped s' => rw [outcome] at value; cases value
  | .done (.ok a) s' n' => rw [outcome] at value; exact ⟨a, s', n', rfl, value⟩
  | .done (.error e) s' n' => rw [outcome] at value; cases value

end Script

def Meets (crash : σ → Prop) (post : α → σ → Prop) (fail : ε → σ → Prop) :
    Outcome σ (Except ε α) → Prop
  | .stopped s => crash s
  | .done (.ok a) s _ => post a s
  | .done (.error e) s _ => fail e s

/-- What a single step leaves, with its reply if the process goes on. -/
abbrev Told (crash : σ → Prop) (post : α → σ → Prop) (fail : ε → σ → Prop) :
    σ × Option (Except ε α) → Prop
  | (s, none) => crash s
  | (s, some (.ok a)) => post a s
  | (s, some (.error e)) => fail e s

/-- From every state in `pre`, under every stream of allowed choices. -/
def Triple (allow : χ → Prop) (crash pre : σ → Prop) (m : Script σ χ ε α)
    (post : α → σ → Prop) (fail : ε → σ → Prop) : Prop :=
  ∀ choices : ℕ → χ, (∀ n, allow (choices n)) → ∀ n s, pre s →
    Meets crash post fail (m choices n s)

namespace Triple

variable {allow : χ → Prop} {crash crash' pre pre' : σ → Prop} {m : Script σ χ ε α}
  {post post' : α → σ → Prop} {fail fail' : ε → σ → Prop}

theorem conseq (h : Triple allow crash pre m post fail) (before : ∀ s, pre' s → pre s)
    (stops : ∀ s, crash s → crash' s) (after : ∀ a s, post a s → post' a s)
    (fails : ∀ e s, fail e s → fail' e s) : Triple allow crash' pre' m post' fail' := by
  intro choices allowed n s hs
  have met := h choices allowed n s (before s hs)
  match outcome : m choices n s with
  | .stopped s' => rw [outcome] at met; exact stops s' met
  | .done (.ok a) s' n' => rw [outcome] at met; exact after a s' met
  | .done (.error e) s' n' => rw [outcome] at met; exact fails e s' met

theorem weaken (h : Triple allow crash pre m post fail) (before : ∀ s, pre' s → pre s) :
    Triple allow crash pre' m post fail :=
  h.conseq before (fun _ hs => hs) (fun _ _ hs => hs) (fun _ _ hs => hs)

theorem strengthen (h : Triple allow crash pre m post fail)
    (after : ∀ a s, post a s → post' a s) : Triple allow crash pre m post' fail :=
  h.conseq (fun _ hs => hs) (fun _ hs => hs) after (fun _ _ hs => hs)

theorem pure (a : α) (h : ∀ s, pre s → post a s) :
    Triple allow crash pre (Pure.pure a : Script σ χ ε α) post fail :=
  fun _ _ _ s hs => h s hs

theorem throw (e : ε) (h : ∀ s, pre s → fail e s) :
    Triple allow crash pre (MonadExcept.throw e : Script σ χ ε α) post fail :=
  fun _ _ _ s hs => h s hs

theorem bind {f : α → Script σ χ ε β} {last : β → σ → Prop}
    (first : Triple allow crash pre m post fail)
    (rest : ∀ a, Triple allow crash (post a) (f a) last fail) :
    Triple allow crash pre (m >>= f) last fail := by
  intro choices allowed n s hs
  have met := first choices allowed n s hs
  change Meets crash last fail (Script.bind m f choices n s)
  unfold Script.bind
  match outcome : m choices n s with
  | .stopped s' => rw [outcome] at met; exact met
  | .done (.ok a) s' n' => rw [outcome] at met; exact rest a choices allowed n' s' met
  | .done (.error e) s' n' => rw [outcome] at met; exact met

variable {a : α} {choices : ℕ → χ} {s : σ}

/-- The first program is known to return `a`. -/
theorem known {f : α → Script σ χ ε β} {middle : σ → Prop} {last : β → σ → Prop}
    (first : Triple allow crash pre m (fun r s => r = a ∧ middle s) fail)
    (rest : Triple allow crash middle (f a) last fail) :
    Triple allow crash pre (m >>= f) last fail := by
  refine bind first fun r choices allowed n s hs => ?_
  obtain ⟨rfl, hs⟩ := hs
  exact rest choices allowed n s hs

theorem any {ι : Type} {family : ι → σ → Prop}
    (h : ∀ i, Triple allow crash (family i) m post fail) :
    Triple allow crash (fun s => ∃ i, family i s) m post fail := by
  intro choices allowed n s hs
  obtain ⟨i, hs⟩ := hs
  exact h i choices allowed n s hs

theorem given {fact : Prop} (h : fact → Triple allow crash pre m post fail) :
    Triple allow crash (fun s => fact ∧ pre s) m post fail :=
  fun choices allowed n s hs => h hs.1 choices allowed n s hs.2

theorem look {f : σ → α} (h : ∀ s, pre s → f s = a) :
    Triple allow crash pre (Script.look f : Script σ χ ε α) (fun r s => r = a ∧ pre s) fail :=
  fun _ _ _ s hs => ⟨h s hs, hs⟩

theorem attempt (h : Triple allow crash pre m post fail) :
    Triple allow crash pre m.attempt
      (fun r s => match r with | .ok a => post a s | .error e => fail e s) fail' := by
  intro choices allowed n s hs
  have met := h choices allowed n s hs
  unfold Script.attempt
  match outcome : m choices n s with
  | .stopped s' => rw [outcome] at met; exact met
  | .done (.ok a) s' n' => rw [outcome] at met; exact met
  | .done (.error e) s' n' => rw [outcome] at met; exact met

theorem attempt_known {middle : σ → Prop}
    (h : Triple allow crash pre m (fun r s => r = a ∧ middle s) (fun _ _ => False)) :
    Triple allow crash pre m.attempt (fun r s => r = .ok a ∧ middle s) fail := by
  refine h.attempt.strengthen fun r s hs => ?_
  cases r with
  | ok b => exact ⟨congrArg Except.ok hs.1, hs.2⟩
  | error e => exact hs.elim

theorem step {f : χ → σ → σ × Option (Except ε α)}
    (h : ∀ c s, allow c → pre s → Told crash post fail (f c s)) :
    Triple allow crash pre (Script.step f) post fail := by
  intro choices allowed n s hs
  have met := h (choices n) s (allowed n) hs
  unfold Script.step
  match outcome : f (choices n) s with
  | (s', none) => rw [outcome] at met; exact met
  | (s', some (.ok a)) => rw [outcome] at met; exact met
  | (s', some (.error e)) => rw [outcome] at met; exact met

theorem ofExcept {r : Except ε α} (ok : ∀ a s, r = .ok a → pre s → post a s)
    (error : ∀ e s, r = .error e → pre s → fail e s) :
    Triple allow crash pre (Script.ofExcept r) post fail := by
  cases r with
  | ok a => exact fun _ _ _ s hs => ok a s rfl hs
  | error e => exact fun _ _ _ s hs => error e s rfl hs

theorem checked {r : Except ε α} (ok : r = .ok a) :
    Triple allow crash pre (Script.ofExcept r) (fun v s => v = a ∧ pre s) fail :=
  ofExcept (fun v s found hs => ⟨Except.ok.inj (found.symm.trans ok), hs⟩)
    (fun e s found _ => by rw [ok] at found; cases found)

variable (h : Triple allow crash pre m post fail)
include h

/-- A program that does not stop returns or fails. -/
theorem ends (stops : ∀ s, ¬crash s) (allowed : ∀ n, allow (choices n)) (n : ℕ) (hs : pre s) :
    (∃ a, (m choices n s).value? = some (.ok a) ∧ post a (m choices n s).final) ∨
      ∃ e, (m choices n s).value? = some (.error e) ∧ fail e (m choices n s).final := by
  have met := h choices allowed n s hs
  match outcome : m choices n s with
  | .stopped s' => rw [outcome] at met; exact absurd met (stops s')
  | .done (.ok a) s' n' => rw [outcome] at met; exact .inl ⟨a, rfl, met⟩
  | .done (.error e) s' n' => rw [outcome] at met; exact .inr ⟨e, rfl, met⟩

theorem returns (stops : ∀ s, ¬crash s) (fails : ∀ e s, ¬fail e s)
    (allowed : ∀ n, allow (choices n)) (n : ℕ) (hs : pre s) :
    ∃ a, (m choices n s).value? = some (.ok a) ∧ post a (m choices n s).final :=
  (h.ends stops allowed n hs).resolve_right fun ⟨e, _, failed⟩ => fails e _ failed

theorem returned (allowed : ∀ n, allow (choices n)) {n : ℕ} (hs : pre s)
    (value : (m choices n s).value? = some (.ok a)) : post a (m choices n s).final := by
  have met := h choices allowed n s hs
  match outcome : m choices n s with
  | .stopped s' => rw [outcome] at value; cases value
  | .done (.ok a') s' n' => rw [outcome] at met value; cases value; exact met
  | .done (.error e) s' n' => rw [outcome] at value; cases value

theorem failed (allowed : ∀ n, allow (choices n)) {n : ℕ} {e : ε} (hs : pre s)
    (value : (m choices n s).value? = some (.error e)) : fail e (m choices n s).final := by
  have met := h choices allowed n s hs
  match outcome : m choices n s with
  | .stopped s' => rw [outcome] at value; cases value
  | .done (.ok a) s' n' => rw [outcome] at value; cases value
  | .done (.error e') s' n' => rw [outcome] at met value; cases value; exact met

/-- An assertion implied by all three exits holds of the state an execution leaves. -/
theorem final {inv : σ → Prop} (stops : ∀ s, crash s → inv s) (after : ∀ a s, post a s → inv s)
    (fails : ∀ e s, fail e s → inv s) (allowed : ∀ n, allow (choices n)) {n : ℕ} (hs : pre s) :
    inv (m choices n s).final := by
  have met : Meets inv (fun _ => inv) (fun _ => inv) (m choices n s) :=
    h.conseq (fun _ hs => hs) stops after fails choices allowed n s hs
  match outcome : m choices n s with
  | .stopped _ | .done (.ok _) _ _ | .done (.error _) _ _ => rw [outcome] at met; exact met

end Triple

end TerrapiVault.CrashLogic
