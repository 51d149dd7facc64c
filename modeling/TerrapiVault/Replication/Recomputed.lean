import TerrapiVault.Replication.Represents

/-! Checkpoints recomputed from a store that represents a history: `calculate`
returns the checkpoint of the history, or of the prefix asked for, and fails
exactly when an entry is pending or the prefix is not there. -/
namespace TerrapiVault.Replication

variable {C V I D : Type} {S : Schema C V I D} {identity : Identity I}

namespace Store

variable {rows : List (OperationReceipt D)} {a : Anchor D}

theorem checkReceipts_eq_ok {count : ℕ} {u : Unit} :
    checkReceipts S count rows = .ok u ↔ OperationReceipt.Numbered S count rows := by
  induction rows generalizing count with
  | nil => simp [checkReceipts, OperationReceipt.Numbered]
  | cons r rest ih =>
    simp only [checkReceipts, ensure_bind_eq_ok, ih, OperationReceipt.Numbered]
    refine and_congr ?_ Iff.rfl
    constructor
    · intro checked
      obtain ⟨sequence, name, version, result, digest⟩ := checked
      exact ⟨sequence, name, version, result, digest⟩
    · intro formed
      exact ⟨formed.sequence_eq, formed.operationId_ne, formed.fingerprintVersion_eq,
        formed.resultVersion_eq, formed.requestDigest_length⟩

theorem receiptDigestFrom_eq (numbered : OperationReceipt.Numbered S 0 rows) {n : ℕ}
    (within : n ≤ rows.length) (bound : n < 2 ^ 63) :
    receiptDigestFrom S rows n = .ok (S.hash (.receipts (rows.take n))) := by
  have selected := numbered.consecutive.filter_le n
  rw [Nat.sub_zero] at selected
  have checked : checkReceipts S 0 (rows.take n) = .ok () :=
    checkReceipts_eq_ok.mpr (numbered.take n)
  simp only [receiptDigestFrom, selected]
  rw [ensure_of S.fingerprintVersion_pos, ensure_of bound, checked,
    ensure_of (List.length_take_of_le within)]
  rfl

/-- A digest over every row says that the rows are numbered from one. -/
theorem receiptDigestFrom_all {digest : D}
    (ok : receiptDigestFrom S rows rows.length = .ok digest) :
    OperationReceipt.Numbered S 0 rows ∧ digest = S.hash (.receipts rows) := by
  simp only [receiptDigestFrom, checked_ok, exists_and_left, exists_const,
    checkReceipts_eq_ok] at ok
  obtain ⟨_, _, numbered, count, rfl⟩ := ok
  have whole := List.filter_eq_self.mpr (List.length_filter_eq_length_iff.mp count)
  rw [whole] at numbered ⊢
  exact ⟨numbered, rfl⟩

variable [DecidableEq I] [DecidableEq D]

/-- A base over an empty journal that passes `current` is an origin of its own. -/
theorem represents_base (st : Store C V I D) {base : Checkpoint I D} {quiescent : Bool}
    {result : Checkpoint I D × V} (log : st.log = []) (stored : st.base = some base)
    (distinct : (st.receipts.map (·.result.operationId)).Nodup)
    (ok : st.current S identity quiescent = .ok result) :
    ∃ h : History S identity, st.Represents h none := by
  simp only [current, calculate, checkBase, start, stored, log, checked_ok, exists_and_left,
    exists_const, List.filter_nil, scan, exists_eq_left', Option.isNone_none, if_true,
    baseFloor_some, sqlInteger_eq_ok] at ok
  obtain ⟨_, ⟨_, checked, _, _, ⟨bound, _⟩, _, _, count, digest, computed, rfl⟩, data, _⟩ := ok
  split_ifs at checked with form
  rw [computed, ok_bind, ensure_eq_ok] at checked
  rw [← count] at computed
  obtain ⟨numbered, rfl⟩ := receiptDigestFrom_all computed
  let origin : Anchor D := ⟨base.sequence, base.viewDigest, base.journalDigest⟩
  let h : History S identity :=
    { origin := origin
      imported := st.receipts
      entries := []
      origin_lt := bound
      numbered := numbered
      imported_length := count
      chained := trivial
      applied := by simp
      distinct := by simpa using distinct }
  have whole : h.upTo base.sequence = h := h.upTo_of_length_le (Nat.le_refl _)
  have same : base = h.checkpoint := by
    cases base
    simp only [History.checkpoint, Checkpoint.mk.injEq]
    exact ⟨form.1, form.2, rfl, rfl, rfl, by simpa [History.receipts, h] using checked⟩
  refine ⟨h, ⟨by simp [log, h], by simp [History.receipts, h], by simp, by simp, ?_, data⟩⟩
  rw [stored]
  exact ⟨Nat.le_refl _, Nat.le_refl _, by rw [whole]; exact same⟩

section Quiescent

variable {st : Store C V I D}

/-- A walk that passed no pending entry ends at or above everything it read. -/
theorem scan_bound {a' : Anchor D} {rows : List (Entry C I D)}
    (walked : st.scan S identity a false rows = .ok (a', false)) :
    a.sequence ≤ a'.sequence ∧ ∀ e ∈ rows, e.sequence ≤ a'.sequence := by
  induction rows generalizing a with
  | nil =>
    simp only [scan, run_ok, and_true] at walked
    rw [walked]
    exact ⟨Nat.le_refl _, by simp⟩
  | cons e rows ih =>
    by_cases applied : e.state = .applied
    · simp only [scan, applied, ne_eq, not_true_eq_false, if_false, if_true, checked_ok] at walked
      obtain ⟨_, _, _, _, _, position, walked⟩ := walked
      obtain ⟨low, high⟩ := ih walked
      have advanced : (a.advance S e).sequence = a.sequence + 1 := rfl
      refine ⟨by omega, ?_⟩
      intro e' listed
      rcases List.mem_cons.mp listed with rfl | later
      · omega
      · exact high e' later
    · simp only [scan, applied, ne_eq, not_false_eq_true, if_false, if_true, run_ok] at walked
      obtain ⟨_, _, _, _, _, _, _, walked⟩ := walked
      cases rows <;> simp [scan] at walked

theorem current_identity {quiescent : Bool} {checkpoint : Checkpoint I D} {view : V}
    (found : st.current S identity quiescent = .ok (checkpoint, view)) :
    checkpoint.identity = identity := by
  simp only [current, calculate, run_ok, Option.isNone_none, if_true] at found
  obtain ⟨_, ⟨_, _, _, _, _, _, _, _, _, _, _, _, rfl⟩, _, rfl, _⟩ := found
  rfl

theorem calculate_current {checkpoint : Checkpoint I D} {view : V}
    (found : st.current S identity true = .ok (checkpoint, view)) :
    st.calculate S identity true (some checkpoint.sequence) = .ok checkpoint := by
  simp only [current, calculate, checked_ok, Option.isNone_none, if_true] at found
  obtain ⟨_, ⟨keys, base, _, floor, integer, ⟨a, pending⟩, walked, resolved, _, _, digest,
    receipts, rfl⟩, _, rfl, _⟩ := found
  obtain rfl : pending = false := resolved (.inl trivial)
  obtain ⟨_, rfl⟩ := sqlInteger_eq_ok.mp integer
  obtain ⟨low, high⟩ := scan_bound walked
  have short : a.sequence < 2 ^ 63 := by
    simp only [receiptDigestFrom, checked_ok] at receipts
    obtain ⟨_, short, _⟩ := receipts
    exact short
  have above : baseFloor st.base ≤ a.sequence := by
    unfold start at low
    cases stored : st.base with
    | none => simp
    | some b => simpa [stored] using low
  have rows : (st.log.filter fun e => e.sequence ≤ (some a.sequence).getD (2 ^ 63 - 1) ∧
      baseFloor st.base < e.sequence) =
      st.log.filter fun e => e.sequence ≤ (none : Option ℕ).getD (2 ^ 63 - 1) ∧
        baseFloor st.base < e.sequence := by
    refine List.filter_congr fun e listed => ?_
    rw [decide_eq_decide]
    constructor
    · rintro ⟨bounded, below⟩
      simp only [Option.getD_some] at bounded
      exact ⟨by simp only [Option.getD_none]; omega, below⟩
    · rintro ⟨bounded, below⟩
      exact ⟨high e (List.mem_filter.mpr ⟨listed, by simpa using ⟨bounded, below⟩⟩), below⟩
  simp only [calculate, checked_ok, Option.isNone_some, Bool.false_eq_true, if_false]
  exact ⟨keys, base, by simpa using ⟨above, short⟩, _, integer, (a, false),
    (congrArg _ rows).trans walked, fun _ => rfl, by simp, digest, receipts, rfl⟩

end Quiescent

namespace Represents

variable {st : Store C V I D} {h : History S identity} {tail : Option (Entry C I D)}
  (rep : st.Represents h tail)

include rep

omit [DecidableEq I] [DecidableEq D] in
theorem receiptDigest_eq {n : ℕ} (above : h.origin.sequence ≤ n) (within : n ≤ h.length) :
    receiptDigestFrom S st.receipts n = .ok (h.upTo n).checkpoint.receiptDigest := by
  have bound := h.length_lt
  rw [rep.receipts_eq, receiptDigestFrom_eq h.receipts_numbered
    (by rw [h.receipts_length]; exact within) (by omega)]
  simp only [History.checkpoint, h.upTo_receipts above]

theorem checkBase_eq : st.checkBase S identity = .ok () := by
  have base := rep.base
  unfold checkBase
  cases found : st.base with
  | none => rfl
  | some b =>
    rw [found] at base
    obtain ⟨above, within, eq⟩ := base
    have form : b.format = 1 ∧ b.identity = identity := by
      rw [eq]
      exact ⟨rfl, rfl⟩
    dsimp only
    rw [if_pos form, rep.receiptDigest_eq above within, ok_bind,
      ensure_of (congrArg Checkpoint.receiptDigest eq)]

omit [DecidableEq I] [DecidableEq D] in
theorem start_eq : st.start S identity = (h.upTo (baseFloor st.base)).anchor := by
  have base := rep.base
  unfold start
  cases found : st.base with
  | none =>
    rw [found] at base
    simp only [History.upTo_anchor, baseFloor_none, Nat.zero_sub, List.take_zero, Anchor.run_nil]
    exact base.symm
  | some b =>
    rw [found] at base
    obtain ⟨above, within, eq⟩ := base
    have length := h.upTo_length above within
    have sequence := (h.upTo b.sequence).anchor_sequence
    have view := congrArg Checkpoint.viewDigest eq
    have journal := congrArg Checkpoint.journalDigest eq
    simp only [baseFloor_some]
    rw [view, journal]
    nth_rewrite 1 [← length]
    rw [← sequence]
    rfl

theorem scan_applied {entries : List (Entry C I D)}
    (chained : Anchor.Chained S identity a entries) (mem : ∀ e ∈ entries, e ∈ h.entries)
    (rest : List (Entry C I D)) :
    st.scan S identity a false (entries ++ rest) =
      st.scan S identity (a.run S entries) false rest := by
  induction entries generalizing a with
  | nil => rfl
  | cons e later ih =>
    have inside := mem e List.mem_cons_self
    have linked := chained.1
    have position : e.sequence = a.sequence + 1 ∧ e.before = a.view :=
      ⟨linked.sequence_eq, linked.before_eq⟩
    have step := ih chained.2 fun e' more => mem e' (List.mem_cons_of_mem _ more)
    rw [List.cons_append, scan, rep.validateEntry_entry inside,
      ensure_of linked.identity_eq, ensure_of linked.operationId_ne, ensure_of position]
    simp [h.applied e inside, step]

theorem scan_pending : st.scan S identity h.anchor false tail.toList =
    .ok (h.anchor, tail.isSome) := by
  cases tail with
  | none => rfl
  | some e =>
    have next := rep.next e rfl
    have linked := next.linked
    have pending := rep.pending e rfl
    have valid : e.validate S identity = .ok () :=
      Entry.validate_eq_ok.mpr ⟨linked.identity_eq, linked.digest_eq⟩
    have position : e.sequence = h.anchor.sequence + 1 ∧ e.before = h.anchor.view :=
      ⟨linked.sequence_eq, linked.before_eq⟩
    rw [Option.toList_some, scan, rep.validateEntry_fresh pending next.fresh,
      ensure_of linked.identity_eq, ensure_of linked.operationId_ne, ensure_of position, valid]
    simp [pending, scan]

omit [DecidableEq I] [DecidableEq D] in
theorem rows_eq (bound : ℕ) :
    (st.log.filter fun e => e.sequence ≤ bound ∧ baseFloor st.base < e.sequence) =
      (st.log.take (bound - h.origin.sequence)).drop
        (baseFloor st.base - h.origin.sequence) := by
  have split := List.take_append_drop (bound - h.origin.sequence) st.log
  have first : Table.Consecutive Entry.sequence h.origin.sequence
      (st.log.take (bound - h.origin.sequence)) := by
    have whole := rep.consecutive
    rw [← split, Table.Consecutive.append] at whole
    exact whole.1
  calc (st.log.filter fun e => e.sequence ≤ bound ∧ baseFloor st.base < e.sequence)
      = (st.log.filter fun e => e.sequence ≤ bound).filter
          (fun e => baseFloor st.base < e.sequence) := by
        rw [List.filter_filter]
        refine List.filter_congr ?_
        intro e _
        rw [Bool.decide_and, Bool.and_comm]
    _ = _ := by rw [rep.consecutive.filter_le, first.filter_gt]

theorem scan_prefix {n : ℕ} (above : baseFloor st.base ≤ n) (rest : List (Entry C I D)) :
    st.scan S identity (st.start S identity) false
        ((h.entries.take (n - h.origin.sequence)).drop
          (baseFloor st.base - h.origin.sequence) ++ rest) =
      st.scan S identity (h.upTo n).anchor false rest := by
  have low := rep.base.origin_le
  have cut : (h.entries.take (n - h.origin.sequence)).take
      (baseFloor st.base - h.origin.sequence) =
      h.entries.take (baseFloor st.base - h.origin.sequence) := by
    rw [List.take_take, Nat.min_eq_left (by omega)]
  have chained := (h.chained.take (n - h.origin.sequence)).drop
    (baseFloor st.base - h.origin.sequence)
  rw [cut] at chained
  have walked := rep.scan_applied chained
    (fun e mem => List.mem_of_mem_take (List.mem_of_mem_drop mem)) rest
  rw [rep.start_eq, History.upTo_anchor, walked, ← Anchor.run_append, ← cut,
    List.take_append_drop, History.upTo_anchor]

theorem scan_all : st.scan S identity (st.start S identity) false
    (st.log.drop (baseFloor st.base - h.origin.sequence)) = .ok (h.anchor, tail.isSome) := by
  have low := rep.base.origin_le
  have high := rep.base.le_length
  have entries : h.entries.take (h.length - h.origin.sequence) = h.entries := by
    refine List.take_of_length_le ?_
    unfold History.length
    omega
  have walked := rep.scan_prefix high tail.toList
  rw [entries, h.upTo_of_length_le (Nat.le_refl _), rep.scan_pending] at walked
  have short : baseFloor st.base - h.origin.sequence ≤ h.entries.length := by
    unfold History.length at high
    omega
  rw [rep.log_eq, List.drop_append_of_le_length short]
  exact walked

theorem calculate_eq (quiescent : Bool) :
    st.calculate S identity quiescent none =
      if quiescent = true ∧ tail.isSome = true then
        .error (.message "checkpoint requires resolved journal")
      else .ok h.checkpoint := by
  have bound := rep.length_le
  have total := rep.log_length
  have rows := rep.rows_eq (2 ^ 63 - 1)
  rw [List.take_of_length_le (by omega)] at rows
  have count : st.receipts.length = h.anchor.sequence := by
    rw [rep.receipts_eq, h.receipts_length, h.anchor_sequence]
  have digest := rep.receiptDigest_eq (n := h.length) (by unfold History.length; omega)
    (Nat.le_refl _)
  rw [h.upTo_of_length_le (Nat.le_refl _)] at digest
  simp only [calculate, rep.positiveSequenceKeys_eq, rep.checkBase_eq, rep.sqlInteger_floor,
    ok_bind, Option.getD_none, rows, rep.scan_all, Option.isNone_none, if_true,
    h.anchor_sequence, digest]
  rw [ensure_of (by simp), ok_bind]
  by_cases pending : quiescent = true ∧ tail.isSome = true
  · rw [if_pos pending, ensure_not (by simp [pending])]
    rfl
  · rw [if_neg pending, ensure_of (by simpa using pending), ok_bind,
      ensure_of (by simp), ok_bind, ensure_of (count.trans h.anchor_sequence)]
    rfl

theorem calculate_at {n : ℕ} (quiescent : Bool) (above : baseFloor st.base ≤ n)
    (within : n ≤ h.length) :
    st.calculate S identity quiescent (some n) = .ok (h.upTo n).checkpoint := by
  have low := rep.base.origin_le
  have bound := h.length_lt
  have rows := rep.rows_eq n
  have cut : st.log.take (n - h.origin.sequence) =
      h.entries.take (n - h.origin.sequence) := by
    rw [rep.log_eq, List.take_append_of_le_length]
    unfold History.length at within
    omega
  rw [cut] at rows
  have walked := rep.scan_prefix above []
  rw [List.append_nil] at walked
  have length := h.upTo_length (Nat.le_trans low above) within
  have digest := rep.receiptDigest_eq (Nat.le_trans low above) within
  simp only [calculate, rep.positiveSequenceKeys_eq, rep.checkBase_eq, rep.sqlInteger_floor,
    ok_bind, Option.getD_some, rows, walked]
  rw [ensure_of (by simp [above]; omega)]
  simp only [scan, ok_bind, pure_eq, History.anchor_sequence, length, digest]
  rw [ensure_of (by simp), ensure_of (by simp)]
  simp only [ok_bind, Option.isNone_some, Bool.false_eq_true, if_false,
    Except.ok.injEq]
  simp only [History.checkpoint, length]

theorem current_eq (quiescent : Bool) :
    st.current S identity quiescent =
      if quiescent = true ∧ tail.isSome = true then
        .error (.message "checkpoint requires resolved journal")
      else .ok (h.checkpoint, st.data) := by
  rw [current, rep.calculate_eq]
  split_ifs with pending
  · rfl
  · have data : S.viewDigest st.data = h.checkpoint.viewDigest := rep.data
    rw [ok_bind, ensure_of data]
    rfl

theorem current_any : st.current S identity false = .ok (h.checkpoint, st.data) := by
  rw [rep.current_eq, if_neg (by simp)]

theorem current_resolved (none : tail = none) (quiescent : Bool) :
    st.current S identity quiescent = .ok (h.checkpoint, st.data) := by
  rw [rep.current_eq, if_neg (by simp [none])]

theorem verifiedView_eq : st.verifiedView S identity =
    .ok (if st.readiness = some h.checkpoint then some st.data else none) := by
  unfold verifiedView
  cases st.readiness with
  | none => rfl
  | some marker =>
    dsimp only
    rw [rep.current_any, ok_bind, pure_eq]
    simp [eq_comm]

theorem advanceReadiness_eq :
    st.advanceReadiness S identity = .ok { st with readiness := some h.checkpoint } := by
  rw [advanceReadiness, rep.current_any]
  rfl

end Represents

end Store

end TerrapiVault.Replication
