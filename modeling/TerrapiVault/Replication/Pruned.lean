import TerrapiVault.Replication.Recomputed
import Mathlib.Data.List.MinMax
import Mathlib.Order.Nat

/-! Cutting a resolved journal down to its current checkpoint leaves the checkpoint as it
was: the base takes the place of the entries that are gone. -/
namespace TerrapiVault.Replication.Store

variable {C V I D : Type} [DecidableEq I] [DecidableEq D] {S : Schema C V I D}
  {identity : Identity I} {st : Store C V I D} {checkpoint : Checkpoint I D} {view : V}

/-- Every entry a walk reads moves it one on, but for a pending one at the end. -/
theorem scan_count {a a' : Anchor D} {pending : Bool} {rows : List (Entry C I D)}
    (walked : st.scan S identity a false rows = .ok (a', pending)) :
    a'.sequence + pending.toNat = a.sequence + rows.length := by
  induction rows generalizing a with
  | nil =>
    simp only [scan, run_ok] at walked
    obtain ⟨rfl, rfl⟩ := walked
    rfl
  | cons e rows ih =>
    by_cases applied : e.state = .applied
    · simp only [scan, applied, ne_eq, not_true_eq_false, if_false, if_true, checked_ok] at walked
      obtain ⟨_, _, _, _, _, _, walked⟩ := walked
      have rest := ih walked
      have advanced : (a.advance S e).sequence = a.sequence + 1 := rfl
      rw [List.length_cons]
      omega
    · simp only [scan, applied, ne_eq, not_false_eq_true, if_false, if_true,
        run_ok] at walked
      obtain ⟨_, _, _, _, _, _, _, walked⟩ := walked
      cases rows with
      | nil =>
        simp only [scan, run_ok] at walked
        obtain ⟨rfl, rfl⟩ := walked
        rfl
      | cons e' rows => simp [scan] at walked

omit [DecidableEq I] [DecidableEq D] in
theorem start_sequence : (st.start S identity).sequence = baseFloor st.base := by
  unfold start
  cases st.base <;> rfl

/-- A journal that ends at its checkpoint has nothing pending. -/
theorem current_settled {head : JournalHead I D}
    (found : st.current S identity false = .ok (checkpoint, view))
    (measured : st.head identity = .ok head) (whole : head.length = checkpoint.sequence) :
    st.current S identity true = .ok (checkpoint, view) := by
  simp only [Store.head, checked_ok, sqlInteger_eq_ok] at measured
  obtain ⟨_, _, ⟨_, rfl⟩, _, ⟨length, small⟩, rfl⟩ := measured
  simp only [current, calculate, checked_ok, Option.isNone_none, if_true,
    sqlInteger_eq_ok] at found ⊢
  obtain ⟨c, ⟨keys, base, prefixed, floor, ⟨short, rfl⟩, ⟨a, pending⟩, walked, _, named, counted,
    digest, receipts, rfl⟩, data, rfl, rfl⟩ := found
  have inside : st.log.filter (fun e => e.sequence ≤ (none : Option ℕ).getD (2 ^ 63 - 1) ∧
      baseFloor st.base < e.sequence) = st.log.filter fun e => baseFloor st.base < e.sequence := by
    refine List.filter_congr fun e mem => ?_
    simp only [Option.getD_none, decide_eq_decide, and_iff_right_iff_imp]
    intro above
    have listed : e.sequence ∈ (st.log.filter fun e => baseFloor st.base < e.sequence).map
        Entry.sequence := by
      simp only [List.mem_map, List.mem_filter, decide_eq_true_eq]
      exact ⟨e, ⟨mem, above⟩, rfl⟩
    have bounded : e.sequence ≤ ((st.log.filter fun e => baseFloor st.base < e.sequence).map
        Entry.sequence).foldr max 0 := List.le_max_of_le listed le_rfl
    omega
  have count := scan_count walked
  rw [inside, start_sequence] at count
  obtain rfl : pending = false := by
    cases pending with
    | false => rfl
    | true =>
      simp only [Bool.toNat_true] at count
      simp only at whole
      omega
  exact ⟨_, ⟨keys, base, prefixed, _, ⟨short, rfl⟩, (a, false), walked, fun _ => rfl,
    named, counted, digest, receipts, rfl⟩, data, rfl, rfl⟩

theorem current_lt {quiescent : Bool}
    (found : st.current S identity quiescent = .ok (checkpoint, view)) :
    checkpoint.sequence < 2 ^ 63 := by
  simp only [current, calculate, checked_ok, Option.isNone_none, if_true] at found
  obtain ⟨c, ⟨_, _, _, floor, _, ⟨a, pending⟩, walked, _, _, counted, digest, receipts, rfl⟩, _,
    rfl, _⟩ := found
  simp only [receiptDigestFrom, checked_ok] at receipts
  obtain ⟨_, small, _⟩ := receipts
  exact small

theorem current_pruned (random : Bytes32)
    (found : st.current S identity true = .ok (checkpoint, view)) :
    (st.pruned checkpoint random).current S identity true = .ok (checkpoint, view) := by
  have small := current_lt found
  simp only [current, calculate, checked_ok, Option.isNone_none, if_true,
    sqlInteger_eq_ok] at found ⊢
  obtain ⟨c, ⟨keys, base, prefixed, floor, ⟨short, rfl⟩, ⟨a, pending⟩, walked, resolved, named,
    counted, digest, receipts, rfl⟩, data, rfl, rfl⟩ := found
  obtain rfl : pending = false := resolved (.inl trivial)
  obtain ⟨low, high⟩ := scan_bound walked
  rw [start_sequence] at low
  let whole : Checkpoint I D := ⟨1, identity, a.sequence, a.view, a.journal, digest⟩
  have gone : (st.pruned whole random).log.filter (fun e =>
      e.sequence ≤ (none : Option ℕ).getD (2 ^ 63 - 1) ∧ baseFloor (some whole) < e.sequence) = [] := by
    refine List.filter_eq_nil_iff.mpr fun e mem kept => ?_
    obtain ⟨mem, above⟩ := List.mem_filter.mp mem
    simp only [decide_eq_true_eq, Option.getD_none] at above kept
    have cut : a.sequence < e.sequence := above
    have inside : e ∈ st.log.filter fun e => e.sequence ≤ (none : Option ℕ).getD (2 ^ 63 - 1) ∧
        baseFloor st.base < e.sequence := by
      refine List.mem_filter.mpr ⟨mem, decide_eq_true ⟨kept.1, ?_⟩⟩
      omega
    have read : e.sequence ≤ a.sequence := high e inside
    omega
  have kept : (st.pruned whole random).positiveSequenceKeys = .ok () := by
    simp only [positiveSequenceKeys, ensure_eq_ok] at keys ⊢
    exact fun e mem => keys e (List.mem_filter.mp mem).1
  have based : (st.pruned whole random).checkBase S identity = .ok () := by
    simp only [checkBase, pruned, whole, true_and, if_true, bind_eq_ok]
    exact ⟨digest, receipts, ensure_eq_ok.mpr rfl⟩
  exact ⟨_, ⟨kept, based, (by simp), _, ⟨small, rfl⟩, (⟨a.sequence, a.view, a.journal⟩, false),
    gone ▸ rfl, fun _ => rfl, named, counted, digest, receipts, rfl⟩, data, rfl, rfl⟩

theorem scan_unready (readiness : Option (Checkpoint I D)) (a : Anchor D) (pending : Bool)
    (rows : List (Entry C I D)) :
    ({ st with readiness := readiness } : Store C V I D).scan S identity a pending rows =
      st.scan S identity a pending rows := by
  induction rows generalizing a pending with
  | nil => rfl
  | cons e rows ih =>
    simp only [scan, ih]
    rfl

theorem calculate_unready (readiness : Option (Checkpoint I D)) (quiescent : Bool)
    (upTo : Option ℕ) :
    ({ st with readiness := readiness } : Store C V I D).calculate S identity quiescent upTo =
      st.calculate S identity quiescent upTo := by
  simp only [calculate, scan_unready]
  rfl

theorem current_unready (readiness : Option (Checkpoint I D)) (quiescent : Bool) :
    ({ st with readiness := readiness } : Store C V I D).current S identity quiescent =
      st.current S identity quiescent := by
  simp only [current, calculate_unready]

end TerrapiVault.Replication.Store
