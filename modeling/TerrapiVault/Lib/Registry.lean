import Mathlib.Data.List.Nodup
import Mathlib.Logic.Function.Basic

/-! Finite maps with an iteration order. A registry answers lookups with a
function and lists the keys it holds once each; iterating over its values
follows that list. -/

namespace TerrapiVault

structure Registry (κ ν : Type) where
  get : κ → Option ν
  keys : List κ
  distinct : keys.Nodup
  complete : ∀ k, k ∈ keys ↔ (get k).isSome

namespace Registry

variable {κ ν : Type}

def empty : Registry κ ν where
  get _ := none
  keys := []
  distinct := List.nodup_nil
  complete := by simp

@[simp] theorem get_empty (k : κ) : (empty : Registry κ ν).get k = none := rfl

def values (m : Registry κ ν) : List ν := m.keys.filterMap m.get

theorem mem_values {m : Registry κ ν} {v : ν} : v ∈ m.values ↔ ∃ k, m.get k = some v := by
  constructor
  · intro mem
    obtain ⟨k, _, found⟩ := List.mem_filterMap.mp mem
    exact ⟨k, found⟩
  · rintro ⟨k, found⟩
    exact List.mem_filterMap.mpr ⟨k, (m.complete k).mpr (by rw [found]; rfl), found⟩

variable [DecidableEq κ]

def insert (m : Registry κ ν) (k : κ) (v : ν) : Registry κ ν where
  get := Function.update m.get k (some v)
  keys := if k ∈ m.keys then m.keys else m.keys ++ [k]
  distinct := by
    split
    · exact m.distinct
    next absent =>
      refine List.nodup_append.mpr ⟨m.distinct, List.nodup_singleton k, ?_⟩
      intro a mem b single same
      rw [List.mem_singleton.mp single] at same
      exact absent (same ▸ mem)
  complete := by
    intro x
    by_cases same : x = k
    · subst same
      by_cases mem : x ∈ m.keys <;> simp [mem]
    · by_cases mem : k ∈ m.keys <;> simp [mem, same, m.complete]

theorem get_insert (m : Registry κ ν) (k x : κ) (v : ν) :
    (m.insert k v).get x = if x = k then some v else m.get x := Function.update_apply ..

@[simp] theorem get_insert_self (m : Registry κ ν) (k : κ) (v : ν) :
    (m.insert k v).get k = some v := Function.update_self ..

theorem get_insert_of_ne (m : Registry κ ν) {k x : κ} (v : ν) (other : x ≠ k) :
    (m.insert k v).get x = m.get x := Function.update_of_ne other ..

/-- Each value is filed under its own key. -/
def Keyed (key : ν → κ) (m : Registry κ ν) : Prop := ∀ k v, m.get k = some v → key v = k

theorem Keyed.insert {key : ν → κ} {m : Registry κ ν} (keyed : m.Keyed key) {k : κ} {v : ν}
    (own : key v = k) : (m.insert k v).Keyed key := by
  intro x w found
  rw [get_insert] at found
  split at found
  next same => rw [← Option.some.inj found, own, same]
  · exact keyed x w found

end Registry

end TerrapiVault
