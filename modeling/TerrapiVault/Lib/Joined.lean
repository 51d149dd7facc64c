import Mathlib.Data.List.Basic

/-! Lists joined by a separator. Pieces that do not hold it are determined by the whole. -/
namespace TerrapiVault.Joined

variable {α : Type} {sep : α}

def join (sep : α) : List (List α) → List α
  | [] => []
  | [piece] => piece
  | piece :: next :: rest => piece ++ sep :: join sep (next :: rest)

theorem cut {a b x y : List α} (left : sep ∉ a) (right : sep ∉ b)
    (same : a ++ sep :: x = b ++ sep :: y) : a = b ∧ x = y := by
  induction a generalizing b with
  | nil =>
    cases b with
    | nil => exact ⟨rfl, (List.cons.inj same).2⟩
    | cons c b => exact absurd ((List.cons.inj same).1 ▸ List.mem_cons_self) right
  | cons c a ih =>
    cases b with
    | nil => exact absurd ((List.cons.inj same).1 ▸ List.mem_cons_self) left
    | cons d b =>
      obtain ⟨rfl, rest⟩ := List.cons.inj same
      obtain ⟨rfl, rfl⟩ := ih (fun inside => left (List.mem_cons_of_mem _ inside))
        (fun inside => right (List.mem_cons_of_mem _ inside)) rest
      exact ⟨rfl, rfl⟩

theorem join_inj {xs ys : List (List α)} (left : ∀ x ∈ xs, sep ∉ x) (right : ∀ y ∈ ys, sep ∉ y)
    (length : xs.length = ys.length) (same : join sep xs = join sep ys) : xs = ys := by
  induction xs generalizing ys with
  | nil => exact (List.length_eq_zero_iff.mp length.symm).symm
  | cons x xs ih =>
    obtain ⟨y, ys, rfl⟩ := List.exists_cons_of_length_eq_add_one length.symm
    cases xs with
    | nil =>
      obtain rfl := List.length_eq_zero_iff.mp (Nat.succ.inj length).symm
      exact congrArg (fun piece => [piece]) same
    | cons x' xs =>
      obtain ⟨y', ys, rfl⟩ := List.exists_cons_of_length_eq_add_one (Nat.succ.inj length).symm
      obtain ⟨rfl, rest⟩ := cut (left x List.mem_cons_self) (right y List.mem_cons_self) same
      rw [ih (fun z inside => left z (List.mem_cons_of_mem _ inside))
        (fun z inside => right z (List.mem_cons_of_mem _ inside)) (Nat.succ.inj length) rest]

end TerrapiVault.Joined
