import Mathlib.Logic.Basic

/-! Database transactions. Reads and writes inside a transaction go to its working
copy; `commit` makes that copy durable, and a transaction that ends without it is
rolled back. -/
namespace TerrapiVault.Transaction

variable {σ ε α β : Type}

structure Staged (σ : Type) where
  durable : σ
  working : σ

def Tx (σ ε α : Type) : Type := Staged σ → Except ε α × Staged σ

namespace Tx

instance : Monad (Tx σ ε) where
  pure a := fun s => (.ok a, s)
  bind t f := fun s =>
    match t s with
    | (.ok a, s') => f a s'
    | (.error e, s') => (.error e, s')

/-- A check or a computation that leaves the database alone. -/
def lift (x : Except ε α) : Tx σ ε α := fun s => (x, s)

def read : Tx σ ε σ := fun s => (.ok s.working, s)

def write (value : σ) : Tx σ ε Unit := fun s => (.ok (), { s with working := value })

def commit : Tx σ ε Unit := fun s => (.ok (), { s with durable := s.working })

/-- The answer of a transaction and what is durable once it is dropped. -/
def run (t : Tx σ ε α) (file : σ) : Except ε α × σ :=
  ((t ⟨file, file⟩).1, (t ⟨file, file⟩).2.durable)

/-- An error leaves the durable copy alone, an answer meets the postcondition. -/
def Settles (t : Tx σ ε α) (s : Staged σ) (post : α → σ → Prop) : Prop :=
  match t s with
  | (.ok a, s') => post a s'.durable
  | (.error _, s') => s'.durable = s.durable

variable {s : Staged σ} {post : β → σ → Prop}

theorem settles_lift {x : Except ε β} :
    (lift x : Tx σ ε β).Settles s post ↔ ∀ b, x = .ok b → post b s.durable := by
  cases x <;> simp [Settles, lift]

theorem settles_lift_bind {x : Except ε α} {f : α → Tx σ ε β} :
    (lift x >>= f).Settles s post ↔ ∀ a, x = .ok a → (f a).Settles s post := by
  cases x <;> simp [Settles, lift, bind]

theorem settles_pure {b : β} :
    (pure b : Tx σ ε β).Settles s post ↔ post b s.durable := Iff.rfl

theorem settles_bind_pure {t : Tx σ ε α} {f : α → β} :
    (t >>= fun a => pure (f a)).Settles s post ↔ t.Settles s fun a => post (f a) := by
  simp only [Settles, bind, pure]
  split <;> rename_i answer
  · split at answer <;> simp_all
  · split at answer <;> simp_all

/-- What holds of every answer and of a database left alone holds after the call. -/
theorem Settles.run_cases {t : Tx σ ε β} {file : σ} (settles : t.Settles ⟨file, file⟩ post) :
    (∃ b, (t.run file).1 = .ok b ∧ post b (t.run file).2) ∨
      (∃ e, (t.run file).1 = .error e) ∧ (t.run file).2 = file := by
  unfold Settles at settles
  unfold run
  split at settles
  · rename_i b s' answer
    refine .inl ⟨b, ?_, ?_⟩ <;> rw [answer]
    exact settles
  · rename_i e s' answer
    refine .inr ⟨⟨e, ?_⟩, ?_⟩ <;> rw [answer]
    exact settles

theorem Settles.returned {t : Tx σ ε β} {file : σ} {b : β} (settles : t.Settles ⟨file, file⟩ post)
    (answer : (t.run file).1 = .ok b) : post b (t.run file).2 := by
  rcases settles.run_cases with ⟨b', answer', met⟩ | ⟨⟨e, refused⟩, _⟩
  · exact Except.ok.inj (answer'.symm.trans answer) ▸ met
  · cases refused.symm.trans answer

end Tx

end TerrapiVault.Transaction
