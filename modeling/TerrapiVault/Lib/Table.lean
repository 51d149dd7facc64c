import Mathlib.Data.List.Nodup
import Mathlib.Data.Nat.Notation

/-! Keyed tables held as lists in ascending key order. `put` inserts a row or
replaces the row with the same key. `Consecutive` says that the keys are the
numbers that follow a start value without a gap; then selecting a key range is
taking or dropping a prefix. -/
namespace TerrapiVault.Table

variable {α : Type}

def put {κ : Type} [LT κ] [DecidableLT κ] (key : α → κ) (rows : List α) (row : α) : List α :=
  rows.filter (fun r => key r < key row) ++ row :: rows.filter (fun r => key row < key r)

variable (key : α → ℕ) {rows : List α} {row : α}

theorem put_last (below : ∀ r ∈ rows, key r < key row) : put key rows row = rows ++ [row] := by
  have kept : rows.filter (fun r => key r < key row) = rows := by
    simpa [List.filter_eq_self] using below
  have none : rows.filter (fun r => key row < key r) = [] := by
    simpa [List.filter_eq_nil_iff] using fun r hr => Nat.le_of_lt (below r hr)
  rw [put, kept, none]

theorem put_replace {old : α} (below : ∀ r ∈ rows, key r < key row) (same : key old = key row) :
    put key (rows ++ [old]) row = rows ++ [row] := by
  have kept : put key (rows ++ [old]) row = put key rows row := by
    simp [put, List.filter_append, same]
  rw [kept, put_last key below]

theorem find?_unique {p : α → Bool} (mem : row ∈ rows) (found : p row)
    (unique : ∀ r ∈ rows, p r → r = row) : rows.find? p = some row := by
  cases h : rows.find? p with
  | none =>
    have absent := List.find?_eq_none.mp h row mem
    exact absurd found absent
  | some r => rw [unique r (List.mem_of_find?_eq_some h) (List.find?_some h)]

/-- A second index stays unique when the new row's value is unused. -/
theorem filter_unique {κ : Type} [DecidableEq κ] {index : α → κ}
    (distinct : (rows.map index).Nodup) (mem : row ∈ rows) :
    rows.filter (fun r => index r = index row) = [row] := by
  induction rows with
  | nil => simp at mem
  | cons r rows ih =>
    rw [List.map_cons, List.nodup_cons] at distinct
    rcases List.mem_cons.mp mem with rfl | inside
    · have none : rows.filter (fun r => index r = index row) = [] := by
        refine List.filter_eq_nil_iff.mpr fun r inside same => distinct.1 ?_
        exact of_decide_eq_true same ▸ List.mem_map_of_mem inside
      rw [List.filter_cons_of_pos (by simp), none]
    · have other : index r ≠ index row := by
        intro same
        exact distinct.1 (same ▸ List.mem_map_of_mem inside)
      rw [List.filter_cons_of_neg (by simpa using other), ih distinct.2 inside]

theorem nodup_put {κ : Type} {index : α → κ} (distinct : (rows.map index).Nodup)
    (unused : ∀ r ∈ rows, index r ≠ index row) : ((put key rows row).map index).Nodup := by
  have part : ∀ p : α → Bool, ((rows.filter p).map index).Nodup := fun p =>
    distinct.sublist (List.filter_sublist.map _)
  rw [put, List.map_append, List.map_cons, List.nodup_append, List.nodup_cons]
  refine ⟨part _, ⟨?_, part _⟩, ?_⟩
  · intro mem
    obtain ⟨r, kept, same⟩ := List.mem_map.mp mem
    exact unused r (List.mem_of_mem_filter kept) same
  · intro a below b above same
    obtain ⟨r, kept, rfl⟩ := List.mem_map.mp below
    rcases List.mem_cons.mp above with rfl | later
    · exact unused r (List.mem_of_mem_filter kept) same
    · obtain ⟨r', kept', rfl⟩ := List.mem_map.mp later
      have equal := List.inj_on_of_nodup_map distinct (List.mem_of_mem_filter kept)
        (List.mem_of_mem_filter kept') same
      have low : key r < key row := by simpa using List.of_mem_filter kept
      have high : key row < key r' := by simpa using List.of_mem_filter kept'
      rw [equal] at low
      omega

/-- The keys are `start + 1`, `start + 2` and so on. -/
def Consecutive : ℕ → List α → Prop
  | _, [] => True
  | start, row :: rows => key row = start + 1 ∧ Consecutive (start + 1) rows

namespace Consecutive

variable {key} {start bound : ℕ} {rows more : List α} {row other : α}

theorem append : Consecutive key start (rows ++ more) ↔
    Consecutive key start rows ∧ Consecutive key (start + rows.length) more := by
  induction rows generalizing start with
  | nil => simp [Consecutive]
  | cons r rs ih =>
    have shift : start + 1 + rs.length = start + (rs.length + 1) := by omega
    simp [Consecutive, ih, shift, and_assoc]

variable (h : Consecutive key start rows)
include h

theorem bounds (mem : row ∈ rows) : start < key row ∧ key row ≤ start + rows.length := by
  induction rows generalizing start with
  | nil => simp at mem
  | cons r rs ih =>
    obtain ⟨first, rest⟩ := h
    rcases List.mem_cons.mp mem with rfl | later
    · simp only [List.length_cons]
      omega
    · have := ih rest later
      simp only [List.length_cons]
      omega

theorem key_unique (mem : row ∈ rows) (mem' : other ∈ rows) (same : key row = key other) :
    row = other := by
  induction rows generalizing start with
  | nil => simp at mem
  | cons r rs ih =>
    obtain ⟨first, rest⟩ := h
    rcases List.mem_cons.mp mem with rfl | later <;>
      rcases List.mem_cons.mp mem' with rfl | later'
    · rfl
    · have := (bounds rest later').1
      omega
    · have := (bounds rest later).1
      omega
    · exact ih rest later later'

theorem filter_split (bound : ℕ) :
    rows.filter (fun r => key r ≤ bound) = rows.take (bound - start) ∧
      rows.filter (fun r => bound < key r) = rows.drop (bound - start) := by
  induction rows generalizing start with
  | nil => simp
  | cons r rs ih =>
    obtain ⟨first, rest⟩ := h
    by_cases fits : start + 1 ≤ bound
    · have step : bound - start = bound - (start + 1) + 1 := by omega
      have low : ¬bound < start + 1 := by omega
      simp [first, fits, low, step, ih rest]
    · have none : bound - start = 0 := by omega
      have above : ∀ r ∈ rs, bound < key r := by
        intro r hr
        have := (bounds rest hr).1
        omega
      have empty : rs.filter (fun r => key r ≤ bound) = [] := by
        simpa [List.filter_eq_nil_iff] using above
      have kept : rs.filter (fun r => bound < key r) = rs := by
        simpa [List.filter_eq_self] using above
      simp [first, fits, none, empty, kept, Nat.lt_of_not_le fits]

theorem filter_le (bound : ℕ) :
    rows.filter (fun r => key r ≤ bound) = rows.take (bound - start) :=
  (h.filter_split bound).1

theorem filter_gt (bound : ℕ) :
    rows.filter (fun r => bound < key r) = rows.drop (bound - start) :=
  (h.filter_split bound).2

theorem find?_key (mem : row ∈ rows) : rows.find? (fun r => key r = key row) = some row :=
  find?_unique mem (by simp) fun r hr same =>
    h.key_unique hr mem (of_decide_eq_true same)

theorem find?_none (out : bound ≤ start ∨ start + rows.length < bound) :
    rows.find? (fun r => key r = bound) = none := by
  rw [List.find?_eq_none]
  intro r hr same
  have inside := h.bounds hr
  have same := of_decide_eq_true same
  omega

theorem drop {n : ℕ} (within : n ≤ rows.length) : Consecutive key (start + n) (rows.drop n) := by
  have split := List.take_append_drop n rows
  rw [← split, append, List.length_take, Nat.min_eq_left within] at h
  exact h.2

theorem last_key : rows.getLast?.elim start key = start + rows.length := by
  cases shown : rows.getLast? with
  | none =>
    rw [List.getLast?_eq_none_iff.mp shown]
    rfl
  | some row =>
    obtain ⟨front, rfl⟩ := List.getLast?_eq_some_iff.mp shown
    have last := (append.mp h).2.1
    rw [List.length_append, List.length_singleton]
    exact last

theorem map_key : rows.map key = List.range' (start + 1) rows.length := by
  induction rows generalizing start with
  | nil => rfl
  | cons r rs ih =>
    obtain ⟨first, rest⟩ := h
    rw [List.map_cons, List.length_cons, List.range'_succ, first, ih rest]

/-- The largest key, zero for an empty table. -/
theorem foldr_max : (rows.map key).foldr max 0 = if rows = [] then 0 else start + rows.length := by
  induction rows generalizing start with
  | nil => rfl
  | cons r rs ih =>
    obtain ⟨first, rest⟩ := h
    rw [List.map_cons, List.foldr_cons, ih rest, first]
    cases rs with
    | nil => simp
    | cons r' rs' =>
      simp only [reduceCtorEq, if_false, List.length_cons]
      omega

end Consecutive

end TerrapiVault.Table
