import TerrapiVault.Replication.History

/-! A store represents a history with at most one pending entry. Under this
relation every statement of the journal, receipt and checkpoint code has a closed
form in terms of the history; callers use these forms and never open the tables. -/
namespace TerrapiVault.Replication

variable {C V I D : Type} {S : Schema C V I D} {identity : Identity I}

namespace History

variable (h : History S identity)

/-- No base over a complete history, or one of its own checkpoints. -/
def Base : Option (Checkpoint I D) → Prop
  | none => h.origin = Anchor.genesis S identity
  | some b => h.origin.sequence ≤ b.sequence ∧ b.sequence ≤ h.length ∧
      b = (h.upTo b.sequence).checkpoint

theorem upTo_receipts {n : ℕ} (above : h.origin.sequence ≤ n) :
    (h.upTo n).receipts = h.receipts.take n := by
  have imported : h.imported.take n = h.imported :=
    List.take_of_length_le (by rw [h.imported_length]; exact above)
  simp only [receipts, upTo, List.take_append, imported, h.imported_length, List.map_take]

theorem upTo_anchor (n : ℕ) :
    (h.upTo n).anchor = h.origin.run S (h.entries.take (n - h.origin.sequence)) := rfl

variable {h} {base : Option (Checkpoint I D)}

theorem Base.origin_le (ok : h.Base base) : h.origin.sequence ≤ baseFloor base := by
  cases base with
  | none => simp [Base] at ok; simp [ok, Anchor.genesis]
  | some b => exact ok.1

theorem Base.le_length (ok : h.Base base) : baseFloor base ≤ h.length := by
  cases base with
  | none => simp
  | some b => exact ok.2.1

theorem Base.push (ok : h.Base base) {e : Entry C I D} (next : h.Next e) :
    (h.push e next).Base base := by
  cases base with
  | none => exact ok
  | some b =>
    obtain ⟨above, within, eq⟩ := ok
    refine ⟨above, ?_, ?_⟩
    · rw [push_length]
      omega
    · rw [push_upTo next within]
      exact eq

end History

namespace Store

/-- The tables hold exactly the history and the pending entry. -/
structure Represents (st : Store C V I D) (h : History S identity)
    (tail : Option (Entry C I D)) : Prop where
  log_eq : st.log = h.entries ++ tail.toList
  receipts_eq : st.receipts = h.receipts
  pending : ∀ e ∈ tail, e.state ≠ .applied
  next : ∀ e ∈ tail, h.Next e
  base : h.Base st.base
  data : S.viewDigest st.data = h.anchor.view

namespace Represents

variable {st : Store C V I D} {h : History S identity} {tail : Option (Entry C I D)}
  (rep : st.Represents h tail)

include rep

variable {e : Entry C I D}

theorem mem_log : e ∈ st.log ↔ e ∈ h.entries ∨ e ∈ tail := by
  rw [rep.log_eq, List.mem_append, Option.mem_toList, Option.mem_def]

theorem chained : Anchor.Chained S identity h.origin st.log := by
  rw [rep.log_eq, Anchor.Chained.append]
  refine ⟨h.chained, ?_⟩
  cases tail with
  | none => trivial
  | some e => exact ⟨(rep.next e rfl).linked, trivial⟩

theorem consecutive : Table.Consecutive Entry.sequence h.origin.sequence st.log :=
  rep.chained.consecutive

theorem stored (mem : e ∈ st.log) : e.Stored S := by
  obtain ⟨position, linked⟩ := rep.chained.linked mem
  exact linked.stored

theorem operations_nodup : (st.log.map (·.batch.operationId)).Nodup := by
  have entries : (h.entries.map (·.batch.operationId)).Nodup := by
    have distinct := h.operations_nodup
    simp only [History.operations, History.receipts, List.map_append, List.nodup_append] at distinct
    simpa [Function.comp_def] using distinct.2.1
  rw [rep.log_eq, List.map_append, List.nodup_append]
  refine ⟨entries, ?_, ?_⟩
  · cases tail <;> simp
  · intro a old b new same
    obtain ⟨e, mem, rfl⟩ := List.mem_map.mp old
    obtain ⟨e', mem', rfl⟩ := List.mem_map.mp new
    have fresh := (rep.next e' (Option.mem_toList.mp mem')).fresh
    exact fresh (same ▸ h.mem_operations mem)

theorem operation_unique {e' : Entry C I D} (mem : e ∈ st.log) (mem' : e' ∈ st.log)
    (same : e.batch.operationId = e'.batch.operationId) : e = e' :=
  List.inj_on_of_nodup_map rep.operations_nodup mem mem' same

theorem length_le : h.length + tail.toList.length < 2 ^ 63 := by
  cases tail with
  | none => exact h.length_lt
  | some e =>
    have linked := (rep.next e rfl).linked
    have sequence := linked.sequence_eq
    have bound := linked.sequence_lt
    rw [h.anchor_sequence] at sequence
    simp only [Option.toList_some, List.length_cons, List.length_nil]
    omega

theorem log_length : h.origin.sequence + st.log.length = h.length + tail.toList.length := by
  rw [rep.log_eq, List.length_append, History.length]
  omega

theorem resolved_iff : st.resolved = true ↔ tail = none := by
  simp only [resolved, List.all_eq_true, decide_eq_true_eq]
  constructor
  · intro all
    cases tail with
    | none => rfl
    | some e => exact absurd (all e (rep.mem_log.mpr (.inr rfl))) (rep.pending e rfl)
  · intro none e mem
    rcases rep.mem_log.mp mem with old | new
    · exact h.applied e old
    · simp [none] at new

theorem positiveSequenceKeys_eq : st.positiveSequenceKeys = .ok () :=
  ensure_of fun _ mem => (rep.stored mem).sequence_pos

theorem sqlInteger_floor : sqlInteger (baseFloor st.base) = .ok (baseFloor st.base) :=
  sqlInteger_of (Nat.lt_of_le_of_lt rep.base.le_length h.length_lt)

theorem above_consecutive : Table.Consecutive Entry.sequence (baseFloor st.base)
    (st.log.drop (baseFloor st.base - h.origin.sequence)) := by
  have low := rep.base.origin_le
  have high := rep.base.le_length
  have total := rep.log_length
  have suffix := rep.consecutive.drop (n := baseFloor st.base - h.origin.sequence) (by omega)
  rwa [Nat.add_sub_cancel' low] at suffix

theorem head_eq : st.head identity =
    .ok ⟨st.base, identity, st.revision, st.generation, h.length + tail.toList.length⟩ := by
  have low := rep.base.origin_le
  have high := rep.base.le_length
  have bound := rep.length_le
  have total := rep.log_length
  have rows := rep.consecutive.filter_gt (baseFloor st.base)
  have suffix := rep.above_consecutive
  have maximum := suffix.foldr_max
  have length : baseFloor st.base + (st.log.drop (baseFloor st.base - h.origin.sequence)).length =
      h.length + tail.toList.length := by
    rw [List.length_drop]
    omega
  have top : max (((st.log.drop (baseFloor st.base - h.origin.sequence)).map
      Entry.sequence).foldr max 0) (baseFloor st.base) = h.length + tail.toList.length := by
    rw [maximum]
    split_ifs with empty
    · rw [empty] at length
      simp only [List.length_nil] at length
      omega
    · omega
  simp only [head, rep.positiveSequenceKeys_eq, rep.sqlInteger_floor, ok_bind, rows,
    length, top]
  rw [ensure_of (by omega), ensure_of ⟨trivial, bound⟩]
  rfl

/-! Receipts. -/

theorem receipt?_eq (id : String) :
    st.receipt? id = h.receipts.find? fun r => r.result.operationId = id := by
  rw [receipt?, rep.receipts_eq]

theorem receipt?_entry (mem : e ∈ h.entries) :
    st.receipt? e.batch.operationId = some (e.receipt S) := by
  rw [rep.receipt?_eq]
  refine Table.find?_unique (h.mem_receipts mem) (by simp) ?_
  intro r found same
  exact List.inj_on_of_nodup_map h.operations_nodup found (h.mem_receipts mem)
    (of_decide_eq_true same)

theorem receipt?_absent {id : String} (absent : id ∉ h.operations) : st.receipt? id = none := by
  rw [rep.receipt?_eq, List.find?_eq_none]
  intro r found same
  exact absent (List.mem_map.mpr ⟨r, found, of_decide_eq_true same⟩)

theorem getReceipt_eq (id : String) : st.getReceipt S id = .ok (st.receipt? id) := by
  rw [getReceipt, ensure_of S.fingerprintVersion_pos, ok_bind]
  cases found : st.receipt? id with
  | none => rfl
  | some r =>
    rw [rep.receipt?_eq] at found
    have same : r.result.operationId = id := of_decide_eq_true (List.find?_some found :)
    have mem := List.mem_of_find?_eq_some found
    have formed := h.receipts_numbered.wellFormed mem
    have position := (h.receipts_numbered.consecutive.bounds mem).1
    dsimp only
    rw [ensure_of ⟨position, same ▸ formed.operationId_ne, same, formed.fingerprintVersion_eq,
      formed.resultVersion_eq⟩]
    rfl

/-! Lookups by operation and by sequence. -/

section Lookup

variable [DecidableEq I] [DecidableEq D]

omit rep in
theorem decode_eq (stored : e.Stored S) : decode S e = .ok e := by
  have valid : e.validate S e.batch.identity = .ok () :=
    Entry.validate_eq_ok.mpr ⟨rfl, stored.digest_eq⟩
  rw [decode, ensure_of ⟨stored.sequence_pos, stored.operationId_ne⟩, valid]
  rfl

theorem one_eq {row : Option (Entry C I D)} (mem : ∀ e ∈ row, e ∈ st.log) :
    one S row = .ok row := by
  cases row with
  | none => rfl
  | some e => simp only [one, decode_eq (rep.stored (mem e rfl)), ok_bind, pure_eq]

theorem byOperation_eq (id : String) :
    st.byOperation S id = .ok (st.log.find? fun e => e.batch.operationId = id) :=
  rep.one_eq fun _ found => List.mem_of_find?_eq_some found

theorem byOperation_mem (mem : e ∈ st.log) :
    st.byOperation S e.batch.operationId = .ok (some e) := by
  rw [rep.byOperation_eq]
  refine congrArg Except.ok (Table.find?_unique mem (by simp) ?_)
  intro e' mem' same
  exact rep.operation_unique mem' mem (of_decide_eq_true same)

theorem byOperation_absent {id : String} (absent : ∀ e ∈ st.log, e.batch.operationId ≠ id) :
    st.byOperation S id = .ok none := by
  rw [rep.byOperation_eq]
  refine congrArg Except.ok (List.find?_eq_none.mpr ?_)
  intro e mem same
  exact absent e mem (of_decide_eq_true same)

theorem bySequence_eq {n : ℕ} (bound : n < 2 ^ 63) :
    st.bySequence S n = .ok (st.log.find? fun e => e.sequence = n) := by
  rw [bySequence, sqlInteger_of bound]
  exact rep.one_eq fun _ found => List.mem_of_find?_eq_some found

theorem bySequence_found {n : ℕ} {row : Option (Entry C I D)}
    (lookup : st.bySequence S n = .ok row) :
    n < 2 ^ 63 ∧ (st.log.find? fun e => e.sequence = n) = row := by
  have bound : n < 2 ^ 63 := by
    simp only [bySequence, run_ok, sqlInteger_eq_ok] at lookup
    obtain ⟨_, ⟨small, _⟩, _⟩ := lookup
    exact small
  exact ⟨bound, ok_unique (rep.bySequence_eq bound) lookup⟩

theorem bySequence_mem (mem : e ∈ st.log) : st.bySequence S e.sequence = .ok (some e) := by
  rw [rep.bySequence_eq (rep.stored mem).sequence_lt, rep.consecutive.find?_key mem]

theorem bySequence_beyond {n : ℕ} (beyond : h.length + tail.toList.length < n)
    (bound : n < 2 ^ 63) : st.bySequence S n = .ok none := by
  have total := rep.log_length
  rw [rep.bySequence_eq bound, rep.consecutive.find?_none (.inr (by omega))]

theorem tail_eq : st.tail S = .ok st.log.getLast? :=
  rep.one_eq fun _ last => List.mem_of_getLast? last

theorem tail_some (pending : tail = some e) : st.tail S = .ok (some e) := by
  rw [rep.tail_eq, rep.log_eq, pending]
  simp

omit rep in
theorem fromApplied_eq (applied : e.state = .applied) (stored : e.Stored S) :
    OperationReceipt.fromApplied S e = .ok (e.receipt S) :=
  OperationReceipt.fromApplied_eq_ok.mpr ⟨applied, stored, rfl⟩

theorem validateEntry_entry (mem : e ∈ h.entries) :
    st.validateEntry S e = .ok (some (e.receipt S)) := by
  have applied := h.applied e mem
  have stored := rep.stored (rep.mem_log.mpr (.inl mem))
  rw [validateEntry, rep.getReceipt_eq, rep.receipt?_entry mem]
  simp [applied, fromApplied_eq applied stored]

theorem validateEntry_fresh (pending : e.state ≠ .applied)
    (fresh : e.batch.operationId ∉ h.operations) : st.validateEntry S e = .ok none := by
  rw [validateEntry, rep.getReceipt_eq, rep.receipt?_absent fresh]
  simp [pending]

end Lookup

end Represents

end Store

end TerrapiVault.Replication
