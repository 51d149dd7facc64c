import Mathlib.Algebra.GroupWithZero.Nat

/-! Guarded computations in `Except`. A sequence of guards is read backwards from
its success: every guard held and every intermediate call returned. -/
namespace TerrapiVault.Checked

variable {ε α β : Type}

-- A guard over a collection is decided on its members, not on the whole type.
instance (priority := 2000) decidableMembers {p : α → Prop} [DecidablePred p] (xs : List α) :
    Decidable (∀ x ∈ xs, p x) := List.decidableBAll p xs

instance (priority := 2000) decidablePresent {p : α → Prop} [DecidablePred p] (o : Option α) :
    Decidable (∀ x ∈ o, p x) := Option.decidableForallMem o

-- Octets are compared by lists, which evaluate faster than arrays.
instance (priority := 2000) decidableEqOctets {n : ℕ} : DecidableEq (Vector UInt8 n) := fun a b =>
  decidable_of_iff (a.toList = b.toList) Vector.toList_inj

/-- Fail with `e` unless the condition holds. -/
def ensure (p : Prop) [Decidable p] (e : ε) : Except ε Unit :=
  if p then .ok () else .error e

@[simp] theorem ok_bind (a : α) (f : α → Except ε β) : (Except.ok a >>= f) = f a := rfl

@[simp] theorem error_bind (e : ε) (f : α → Except ε β) :
    ((Except.error e : Except ε α) >>= f) = .error e := rfl

@[simp] theorem pure_eq (a : α) : (pure a : Except ε α) = .ok a := rfl

@[simp] theorem throw_eq (e : ε) : (throw e : Except ε α) = .error e := rfl

/-- A returned value determines what `pure` was given. -/
theorem pure_inj : (∀ a : α, (pure a : Except ε α) = .ok a) ∧
    ∀ a b : α, (Except.ok a : Except ε α) = .ok b ↔ a = b :=
  ⟨fun _ => rfl, fun a b => by rw [Except.ok.injEq]⟩

theorem bind_eq_ok {x : Except ε α} {f : α → Except ε β} {b : β} :
    (x >>= f) = .ok b ↔ ∃ a, x = .ok a ∧ f a = .ok b := by
  cases x with
  | error e => simp
  | ok a => simp

theorem unit_bind_eq_ok {x : Except ε Unit} {f : Unit → Except ε β} {b : β} :
    (x >>= f) = .ok b ↔ x = .ok () ∧ f () = .ok b := by
  cases x with
  | error e => simp
  | ok a => simp

/-- The rules that read a sequence of calls backwards from its success. -/
theorem run_ok : (∀ {ε α β : Type} (x : Except ε α) (f : α → Except ε β) (b : β),
      (x >>= f) = .ok b ↔ ∃ a, x = .ok a ∧ f a = .ok b) ∧
    (∀ p : Unit → Prop, (∃ u, p u) ↔ p ()) ∧
    (∀ {ε α : Type} (a : α), (pure a : Except ε α) = .ok a) ∧
    (∀ {ε α : Type} (a b : α), (Except.ok a : Except ε α) = .ok b ↔ a = b) ∧
    ∀ {α β : Type} (a c : α) (b d : β), (a, b) = (c, d) ↔ a = c ∧ b = d :=
  ⟨fun _ _ _ => bind_eq_ok, fun _ => ⟨fun ⟨_, holds⟩ => holds, fun holds => ⟨(), holds⟩⟩,
    pure_inj.1, pure_inj.2, fun a c b d => by rw [Prod.mk.injEq]⟩

theorem fst_eq_ok {x : Except ε (α × β)} {a : α} :
    (x >>= fun p => pure p.1) = .ok a ↔ ∃ b, x = .ok (a, b) := by
  rw [bind_eq_ok]
  constructor
  · rintro ⟨⟨_, b⟩, returned, same⟩
    exact ⟨b, Except.ok.inj same ▸ returned⟩
  · rintro ⟨b, returned⟩
    exact ⟨_, returned, rfl⟩

theorem ok_unique {x : Except ε α} {a b : α} (left : x = .ok a) (right : x = .ok b) : a = b :=
  Except.ok.inj (left.symm.trans right)

theorem bind_eq_error {x : Except ε α} {f : α → Except ε β} {e : ε} :
    (x >>= f) = .error e ↔ x = .error e ∨ ∃ a, x = .ok a ∧ f a = .error e := by
  cases x with
  | error e' => simp
  | ok a => simp

variable {p : Prop}

theorem ensure_eq_error [Decidable p] {e e' : ε} : ensure p e = .error e' ↔ ¬p ∧ e = e' := by
  by_cases h : p <;> simp [ensure, h]

@[simp] theorem ensure_eq_ok [Decidable p] {e : ε} {u : Unit} : ensure p e = .ok u ↔ p := by
  by_cases h : p <;> simp [ensure, h]

theorem ensure_of [Decidable p] (e : ε) (h : p) : ensure p e = .ok () :=
  if_pos h

theorem ensure_not [Decidable p] (e : ε) (h : ¬p) : ensure p e = .error e :=
  if_neg h

@[simp] theorem ensure_bind_eq_ok [Decidable p] {e : ε} {f : Unit → Except ε β} {b : β} :
    (ensure p e >>= f) = .ok b ↔ p ∧ f () = .ok b := by
  by_cases h : p <;> simp [ensure, h]

end TerrapiVault.Checked

namespace TerrapiVault

export Checked (ok_bind pure_eq pure_inj bind_eq_ok unit_bind_eq_ok run_ok fst_eq_ok ok_unique)

end TerrapiVault
