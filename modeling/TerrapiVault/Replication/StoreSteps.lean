import TerrapiVault.Replication.Recomputed

/-! What each journal statement does to the represented history: a new pending
entry, a change of its state, its application, its removal. Also the answers of
the receipt and page queries. -/
namespace TerrapiVault.Replication

variable {C V I D : Type} {S : Schema C V I D} {identity : Identity I}

namespace Store.Represents

variable {st : Store C V I D} {h : History S identity} {tail : Option (Entry C I D)}
  {e : Entry C I D}

/-! Writes. -/

theorem append (rep : st.Represents h none) (next : h.Next e) (pending : e.state ≠ .applied)
    (random : Bytes32) :
    { st with log := st.log ++ [e], revision := random }.Represents h (some e) := { rep with
  log_eq := by simp [rep.log_eq]
  pending := by simpa using pending
  next := by simpa using next }

theorem restate (rep : st.Represents h (some e)) {state : State} (pending : state ≠ .applied)
    (random : Bytes32) :
    { st with log := h.entries ++ [e.withState state], revision := random }.Represents h
      (some (e.withState state)) := { rep with
  log_eq := by simp
  pending := by simpa [Entry.withState] using pending
  next := by simpa using (rep.next e rfl).withState state }

theorem finish (rep : st.Represents h (some e)) {view : V}
    (after : S.viewDigest view = e.after) (random : Bytes32) :
    { st with data := view, log := h.entries ++ [e.withState .applied],
              receipts := h.receipts ++ [e.receipt S], revision := random }.Represents
      (h.push e (rep.next e rfl)) none where
  log_eq := by simp
  receipts_eq := by simp
  pending := by simp
  next := by simp
  base := rep.base.push _
  data := by simpa [Anchor.advance] using after

theorem remove (rep : st.Represents h (some e)) (random : Bytes32) :
    { st with log := h.entries, revision := random }.Represents h none := { rep with
  log_eq := by simp
  pending := by simp
  next := by simp }

/-- Readiness, generation and revision are not part of the represented history. -/
theorem frame (rep : st.Represents h tail) (readiness : Option (Checkpoint I D))
    (generation revision : Bytes32) :
    { st with readiness := readiness, generation := generation,
              revision := revision }.Represents h tail :=
  { rep with }

theorem rebase (rep : st.Represents h tail) {base : Option (Checkpoint I D)}
    (ok : h.Base base) (revision : Bytes32) :
    { st with base := base, revision := revision }.Represents h tail :=
  { rep with base := ok }

variable {batch : Batch C I}

section Statements

variable [DecidableEq I] [DecidableEq D]

theorem write_eq (st : Store C V I D) (stored : e.Stored S)
    (admitted : admitRow st.log e = .ok ()) (random : Bytes32) :
    st.write S e random =
      .ok { st with log := Table.put Entry.sequence st.log e, revision := random } := by
  have key : 0 < e.sequence ∧ e.sequence < 2 ^ 63 ∧ e.batch.operationId ≠ "" :=
    ⟨stored.sequence_pos, stored.sequence_lt, stored.operationId_ne⟩
  have valid : e.validate S e.batch.identity = .ok () :=
    Entry.validate_eq_ok.mpr ⟨rfl, stored.digest_eq⟩
  rw [write, ensure_of key, valid, admitted]
  rfl

/-- The application rows play no part in a journal write. -/
theorem write_new (rep : st.Represents h none) (linked : Anchor.Linked S identity h.anchor e)
    (view : V) (random : Bytes32)
    (fresh : ∀ row ∈ st.log, row.batch.operationId ≠ e.batch.operationId) :
    Store.write S { st with data := view } e random =
      .ok { st with data := view, log := st.log ++ [e], revision := random } := by
  have sequence := linked.sequence_eq
  rw [h.anchor_sequence] at sequence
  have total := rep.log_length
  simp only [Option.toList_none, List.length_nil, Nat.add_zero] at total
  have absent : st.log.find? (fun row => row.sequence = e.sequence) = none :=
    rep.consecutive.find?_none (.inr (by omega))
  have below : ∀ row ∈ st.log, row.sequence < e.sequence := by
    intro row mem
    have := (rep.consecutive.bounds mem).2
    omega
  have admitted : admitRow st.log e = .ok () := by
    rw [admitRow, absent]
    exact Checked.ensure_of _ fresh
  rw [write_eq { st with data := view } linked.stored admitted, Table.put_last _ below]

theorem write_tail (rep : st.Represents h (some e)) (view : V) (state : State)
    (random : Bytes32) :
    Store.write S { st with data := view } (e.withState state) random =
      .ok { st with data := view, log := h.entries ++ [e.withState state],
                    revision := random } := by
  have linked := (rep.next e rfl).linked
  have inside : e ∈ st.log := rep.mem_log.mpr (.inr rfl)
  have found : st.log.find? (fun row => row.sequence = (e.withState state).sequence) = some e :=
    rep.consecutive.find?_key inside
  have below : ∀ row ∈ h.entries, row.sequence < (e.withState state).sequence := by
    intro row mem
    have bound := (h.chained.consecutive.bounds mem).2
    have sequence := linked.sequence_eq
    rw [h.anchor_sequence, History.length] at sequence
    have same : (e.withState state).sequence = e.sequence := rfl
    omega
  have admitted : admitRow st.log (e.withState state) = .ok () := by
    rw [admitRow, found]
    exact ensure_of rfl
  have log : st.log = h.entries ++ [e] := by simpa using rep.log_eq
  have table : Table.put Entry.sequence st.log (e.withState state) =
      h.entries ++ [e.withState state] := by
    rw [log]
    exact Table.put_replace Entry.sequence below rfl
  have written := write_eq { st with data := view } (linked.stored.withState state) admitted
    random
  rw [table] at written
  exact written

theorem save_new (rep : st.Represents h none) (next : h.Next e) (pending : e.state ≠ .applied)
    (random : Bytes32) :
    st.save S e random = .ok { st with log := st.log ++ [e], revision := random } := by
  have fresh : ∀ row ∈ st.log, row.batch.operationId ≠ e.batch.operationId := by
    intro row mem same
    rcases rep.mem_log.mp mem with old | new
    · exact next.fresh (same ▸ h.mem_operations old)
    · simp at new
  rw [save, rep.write_new next.linked st.data random fresh, ok_bind, if_neg pending]
  rfl

theorem save_restated (rep : st.Represents h (some e)) {state : State}
    (pending : state ≠ .applied) (random : Bytes32) :
    st.save S (e.withState state) random =
      .ok { st with log := h.entries ++ [e.withState state], revision := random } := by
  have kept : (e.withState state).state ≠ .applied := pending
  rw [save, rep.write_tail st.data, ok_bind, if_neg kept]
  rfl

theorem insertReceipt_new (st : Store C V I D) (receipts : st.receipts = h.receipts)
    (next : h.Next e) (applied : e.state = .applied) :
    st.insertReceipt S e = .ok { st with receipts := h.receipts ++ [e.receipt S] } := by
  have linked := next.linked
  have sequence := linked.sequence_eq
  rw [h.anchor_sequence] at sequence
  have below : ∀ r ∈ h.receipts, r.result.sequence < e.sequence := by
    intro r mem
    have bound := (h.receipts_numbered.consecutive.bounds mem).2
    rw [h.receipts_length] at bound
    omega
  have missing : st.getReceipt S e.batch.operationId = .ok none := by
    have absent : st.receipt? e.batch.operationId = none := by
      rw [receipt?, receipts, List.find?_eq_none]
      intro r found same
      exact next.fresh (List.mem_map.mpr ⟨r, found, of_decide_eq_true same⟩)
    rw [getReceipt, ensure_of S.fingerprintVersion_pos, absent]
    rfl
  have unused : ∀ r ∈ st.receipts, r.result.operationId ≠ (e.receipt S).result.operationId ∧
      r.result.sequence ≠ (e.receipt S).result.sequence := by
    intro r mem
    rw [receipts] at mem
    exact ⟨fun same => next.fresh (List.mem_map.mpr ⟨r, mem, same⟩), Nat.ne_of_lt (below r mem)⟩
  have table : Table.put (fun r : OperationReceipt D => r.result.sequence) st.receipts
      (e.receipt S) = h.receipts ++ [e.receipt S] := by
    rw [receipts]
    exact Table.put_last _ below
  rw [insertReceipt, fromApplied_eq applied linked.stored, ok_bind, missing,
    ok_bind]
  dsimp only
  rw [Checked.ensure_of _ unused, table]
  rfl

theorem save_applied (rep : st.Represents h (some e)) (view : V) (random : Bytes32) :
    Store.save S { st with data := view } (e.withState .applied) random =
      .ok { st with data := view, log := h.entries ++ [e.withState .applied],
                    receipts := h.receipts ++ [e.receipt S], revision := random } := by
  have applied : (e.withState .applied).state = .applied := rfl
  rw [save, rep.write_tail view, ok_bind, if_pos applied]
  exact insertReceipt_new _ rep.receipts_eq ((rep.next e rfl).withState .applied) applied

/-- An applied entry written in one go, as the replay loops do. A repeated operation
is caught by the receipt it already has. -/
theorem save_history (rep : st.Represents h none) (linked : Anchor.Linked S identity h.anchor e)
    (applied : e.state = .applied) {view : V} (after : S.viewDigest view = e.after)
    {random : Bytes32} {st' : Store C V I D}
    (ok : Store.save S { st with data := view } e random = .ok st') :
    ∃ next : h.Next e, st'.Represents (h.push e next) none ∧ st'.base = st.base ∧
      st'.generation = st.generation := by
  simp only [save, run_ok, if_pos applied] at ok
  obtain ⟨written, wrote, ok⟩ := ok
  have absent : st.log.find? (fun row => row.sequence = e.sequence) = none := by
    have total := rep.log_length
    have sequence := linked.sequence_eq
    rw [h.anchor_sequence] at sequence
    simp only [Option.toList_none, List.length_nil, Nat.add_zero] at total
    exact rep.consecutive.find?_none (.inr (by omega))
  have unused : ∀ row ∈ st.log, row.batch.operationId ≠ e.batch.operationId := by
    simp only [write, run_ok] at wrote
    obtain ⟨_, _, admitted, _⟩ := wrote
    simp only [admitRow, absent] at admitted
    exact Checked.ensure_eq_ok.mp admitted
  rw [rep.write_new linked view random unused] at wrote
  obtain rfl := Except.ok.inj wrote
  have fresh : e.batch.operationId ∉ h.operations := by
    intro mem
    obtain ⟨r, known, same⟩ := List.mem_map.mp mem
    have found : st.receipt? e.batch.operationId = some r := by
      rw [rep.receipt?_eq]
      refine Table.find?_unique known (decide_eq_true same) ?_
      intro r' other same'
      exact List.inj_on_of_nodup_map h.operations_nodup other known
        ((of_decide_eq_true same').trans same.symm)
    have answered := rep.getReceipt_eq e.batch.operationId
    rw [found] at answered
    simp only [insertReceipt, run_ok] at ok
    obtain ⟨receipt, made, old, got, ok⟩ := ok
    obtain rfl := ok_unique answered got
    simp only [ensure_bind_eq_ok] at ok
    obtain ⟨-, -, made⟩ := OperationReceipt.fromApplied_eq_ok.mp made
    have bound := (h.receipts_numbered.consecutive.bounds known).2
    have sequence := linked.sequence_eq
    rw [ok.1, made, Entry.receipt_sequence, h.receipts_length, sequence, h.anchor_sequence]
      at bound
    omega
  refine ⟨⟨linked, fresh⟩, ?_⟩
  obtain rfl := Except.ok.inj
    (ok.symm.trans (insertReceipt_new _ rep.receipts_eq ⟨linked, fresh⟩ applied))
  have state : e.withState .applied = e := by rw [← applied]; rfl
  refine ⟨⟨?_, ?_, by simp, by simp, rep.base.push _, ?_⟩, rfl, rfl⟩
  · simp [rep.log_eq, state]
  · simp
  · simpa [Anchor.advance] using after

/-! Receipt queries. -/

theorem receipt_eq (rep : st.Represents h tail) (id : String) :
    st.receipt S identity id = .ok (st.receipt? id) := by
  unfold receipt
  cases found : st.log.find? fun e => e.batch.operationId = id with
  | some e =>
    have same : e.batch.operationId = id := of_decide_eq_true (List.find?_some found :)
    have mem := List.mem_of_find?_eq_some found
    rw [← same, rep.byOperation_mem mem, ok_bind]
    rcases rep.mem_log.mp mem with old | new
    · rw [rep.receipt?_entry old]
      exact rep.validateEntry_entry old
    · have fresh := (rep.next e new).fresh
      rw [rep.receipt?_absent fresh]
      exact rep.validateEntry_fresh (rep.pending e new) fresh
  | none =>
    rw [rep.byOperation_eq, found, ok_bind]
    dsimp only
    rw [rep.getReceipt_eq, ok_bind]
    cases known : st.receipt? id with
    | none => rfl
    | some r =>
      -- no journal row carries this receipt, so it came with the origin
      rw [rep.receipt?_eq] at known
      have mem := List.mem_of_find?_eq_some known
      have same : r.result.operationId = id := of_decide_eq_true (List.find?_some known :)
      have imported : r ∈ h.imported := by
        rcases List.mem_append.mp mem with old | new
        · exact old
        · obtain ⟨e, inside, rfl⟩ := List.mem_map.mp new
          have absent := List.find?_eq_none.mp found e (rep.mem_log.mpr (.inl inside))
          exact absurd same (by simpa using absent)
      have bound := (h.numbered.consecutive.bounds imported).2
      rw [Nat.zero_add, h.imported_length] at bound
      have low := rep.base.origin_le
      have base := rep.base
      cases stored : st.base with
      | none =>
        rw [stored] at base
        have none : h.imported = [] := by
          refine List.eq_nil_of_length_eq_zero ?_
          rw [h.imported_length, show h.origin = _ from base]
          rfl
        simp [none] at imported
      | some b =>
        rw [stored, baseFloor_some] at low
        have covered : r.result.sequence ≤ b.sequence := Nat.le_trans bound low
        dsimp only
        rw [ensure_of covered, ok_bind, rep.current_any]
        rfl

omit [DecidableEq I] in
theorem matchesRequest_eq {r : OperationReceipt D} (mem : r ∈ h.receipts)
    (same : r.result.operationId = batch.operationId) :
    r.matchesRequest S batch = ensure (r.requestDigest = S.requestFingerprint batch.changes)
      "idempotency key reused for different request" := by
  have formed := h.receipts_numbered.wellFormed mem
  have bounds := h.receipts_numbered.consecutive.bounds mem
  have limit := h.length_lt
  rw [h.receipts_length, Nat.zero_add] at bounds
  have version : 0 < S.fingerprintVersion ∧ r.fingerprintVersion = S.fingerprintVersion ∧
      r.resultVersion = 1 :=
    ⟨S.fingerprintVersion_pos, formed.fingerprintVersion_eq, formed.resultVersion_eq⟩
  have key : batch.operationId ≠ "" ∧ 0 < r.result.sequence ∧ r.result.sequence < 2 ^ 63 ∧
      r.result.operationId = batch.operationId :=
    ⟨same ▸ formed.operationId_ne, bounds.1, by omega, same⟩
  rw [OperationReceipt.matchesRequest, ensure_of version, ok_bind]
  by_cases digest : r.requestDigest = S.requestFingerprint batch.changes
  · rw [ensure_of digest, ensure_of ⟨key.1, key.2.1, key.2.2.1, key.2.2.2, digest⟩]
  · rw [ensure_not digest, ensure_not fun all => digest all.2.2.2.2]

theorem completedResult_absent (rep : st.Represents h tail)
    (valid : batch.identity = identity ∧ batch.operationId ≠ "")
    (absent : batch.operationId ∉ h.operations) :
    st.completedResult S identity batch = .ok none := by
  rw [completedResult, ensure_of valid, ok_bind, rep.receipt_eq,
    rep.receipt?_absent absent]
  rfl

theorem completedResult_known (rep : st.Represents h tail) {r : OperationReceipt D}
    (valid : batch.identity = identity ∧ batch.operationId ≠ "")
    (known : st.receipt? batch.operationId = some r) :
    st.completedResult S identity batch =
      if r.requestDigest = S.requestFingerprint batch.changes then .ok (some r.result)
      else .error (.message "idempotency key reused for different request") := by
  have found := known
  rw [rep.receipt?_eq] at found
  have mem := List.mem_of_find?_eq_some found
  have same : r.result.operationId = batch.operationId :=
    of_decide_eq_true (List.find?_some found :)
  rw [completedResult, ensure_of valid, ok_bind, rep.receipt_eq, known, ok_bind]
  dsimp only
  rw [matchesRequest_eq mem same]
  split_ifs with digest
  · rw [ensure_of digest]
    rfl
  · rw [ensure_not digest]
    rfl

/-! Pages. -/

theorem pageEntries_eq {position : Anchor D} {rows : List (Entry C I D)}
    (chained : Anchor.Chained S identity position rows) (bytes : ℕ) :
    ∃ k, pageEntries S bytes rows = .ok (rows.take k) ∧ (bytes = 0 → rows ≠ [] → 0 < k) ∧
      JournalPage.validateEntries S identity position.sequence bytes (rows.take k) = .ok () := by
  induction rows generalizing position bytes with
  | nil => exact ⟨0, rfl, by simp, rfl⟩
  | cons e rest ih =>
    have linked := chained.1
    have small := size_lt_of_checkEntrySize linked.fits
    have valid : e.validate S identity = .ok () :=
      Entry.validate_eq_ok.mpr ⟨linked.identity_eq, linked.digest_eq⟩
    rw [pageEntries, ensure_of small, ok_bind]
    by_cases full : maxPageBytes < bytes + e.size S + 1
    · refine ⟨0, ?_, ?_, rfl⟩
      · rw [if_pos full]
        rfl
      · intro none
        omega
    · obtain ⟨k, read, -, checked⟩ := ih chained.2 (bytes + e.size S + 1)
      refine ⟨k + 1, ?_, fun _ _ => Nat.succ_pos k, ?_⟩
      · rw [if_neg full, read]
        rfl
      · rw [List.take_succ_cons, JournalPage.validateEntries, ensure_of linked.sequence_eq,
          valid, ensure_of (Nat.le_of_not_lt full)]
        exact checked

theorem journalPage_eq (rep : st.Represents h tail) {head : JournalHead I D} {after limit : ℕ}
    (found : st.head identity = .ok head) (positive : 0 < limit)
    (small : limit ≤ maxPageEntries) (low : baseFloor st.base ≤ after)
    (high : after ≤ h.length + tail.toList.length) :
    ∃ k, k ≤ limit ∧ (after < h.length + tail.toList.length → 0 < k) ∧
      st.journalPage S identity head after limit =
        .ok ⟨head, after, (st.log.drop (after - h.origin.sequence)).take k⟩ ∧
      JournalPage.validate S ⟨head, after, (st.log.drop (after - h.origin.sequence)).take k⟩
        head after limit = .ok () := by
  have origin := rep.base.origin_le
  have total := rep.log_length
  have headEq := found
  rw [rep.head_eq] at headEq
  have shape : head = _ := (Except.ok.inj headEq).symm
  have cursor : pageCursor head after limit = .ok () := by
    refine ensure_of ⟨positive, small, ?_, ?_⟩
    · rw [shape]
      exact high
    · rw [shape]
      exact low
  have length : head.length = h.length + tail.toList.length := by rw [shape]
  have position : h.origin.sequence + (st.log.take (after - h.origin.sequence)).length =
      after := by
    rw [List.length_take]
    omega
  have chained := (rep.chained.drop (after - h.origin.sequence)).take limit
  obtain ⟨k, read, some, checked⟩ := pageEntries_eq chained 0
  rw [List.take_take] at read checked
  rw [Anchor.run_sequence, position] at checked
  have count : (st.log.drop (after - h.origin.sequence)).length = head.length - after := by
    rw [List.length_drop, length]
    omega
  have progress : after < h.length + tail.toList.length → 0 < min k limit := by
    intro more
    have nonempty : (st.log.drop (after - h.origin.sequence)).take limit ≠ [] := by
      intro none
      have lengths := congrArg List.length none
      rw [List.length_take, count, length, List.length_nil] at lengths
      omega
    have := some rfl nonempty
    omega
  have valid : JournalPage.validate S
      ⟨head, after, (st.log.drop (after - h.origin.sequence)).take (min k limit)⟩
      head after limit = .ok () := by
    have range : ((st.log.drop (after - h.origin.sequence)).take (min k limit)).length ≤ limit ∧
        ((st.log.drop (after - h.origin.sequence)).take (min k limit)).length ≤
          head.length - after := by
      rw [List.length_take, count]
      omega
    have ending : (st.log.drop (after - h.origin.sequence)).take (min k limit) ≠ [] ∨
        after = head.length := by
      by_cases more : after < h.length + tail.toList.length
      · refine .inl fun none => ?_
        have lengths := congrArg List.length none
        have := progress more
        rw [List.length_take, count, length, List.length_nil] at lengths
        omega
      · exact .inr (by omega)
    have scope : head.identity = identity := by rw [shape]
    rw [JournalPage.validate, cursor, ensure_of ⟨rfl, rfl⟩, ensure_of range, ensure_of ending,
      scope]
    exact checked
  refine ⟨min k limit, Nat.min_le_right _ _, progress, ?_, valid⟩
  rw [journalPage, cursor, ok_bind, found, ok_bind, ensure_of rfl,
    ok_bind, rep.consecutive.filter_gt]
  dsimp only
  rw [read, ok_bind, valid]
  rfl

end Statements

end Store.Represents

end TerrapiVault.Replication
