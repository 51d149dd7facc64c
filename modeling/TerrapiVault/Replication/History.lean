import TerrapiVault.Replication.Checkpoint

/-! A committed history: the entries that follow an origin, each linked to the one
before it, and the receipts imported with the origin. A history cannot be built
with a gap, a broken link or a reused operation identifier. -/
namespace TerrapiVault.Replication

variable {C V I D : Type}

namespace OperationReceipt

/-- A receipt of this format for the given sequence. -/
structure WellFormed (S : Schema C V I D) (sequence : ℕ) (r : OperationReceipt D) : Prop where
  sequence_eq : r.result.sequence = sequence
  operationId_ne : r.result.operationId ≠ ""
  fingerprintVersion_eq : r.fingerprintVersion = S.fingerprintVersion
  resultVersion_eq : r.resultVersion = 1
  requestDigest_length : S.length r.requestDigest = 64

/-- Receipts for `start + 1`, `start + 2` and so on. -/
def Numbered (S : Schema C V I D) : ℕ → List (OperationReceipt D) → Prop
  | _, [] => True
  | start, r :: rows => r.WellFormed S (start + 1) ∧ Numbered S (start + 1) rows

namespace Numbered

variable {S : Schema C V I D} {start : ℕ} {rows more : List (OperationReceipt D)}
  {r : OperationReceipt D}

theorem append : Numbered S start (rows ++ more) ↔
    Numbered S start rows ∧ Numbered S (start + rows.length) more := by
  induction rows generalizing start with
  | nil => simp [Numbered]
  | cons r rs ih =>
    have shift : start + 1 + rs.length = start + (rs.length + 1) := by omega
    simp [Numbered, ih, shift, and_assoc]

theorem consecutive (h : Numbered S start rows) :
    Table.Consecutive (·.result.sequence) start rows := by
  induction rows generalizing start with
  | nil => trivial
  | cons r rs ih => exact ⟨h.1.sequence_eq, ih h.2⟩

theorem wellFormed (h : Numbered S start rows) (mem : r ∈ rows) :
    r.WellFormed S r.result.sequence := by
  induction rows generalizing start with
  | nil => simp at mem
  | cons first rs ih =>
    rcases List.mem_cons.mp mem with rfl | later
    · rw [h.1.sequence_eq]
      exact h.1
    · exact ih h.2 later

theorem take (h : Numbered S start rows) (n : ℕ) : Numbered S start (rows.take n) := by
  have split := List.take_append_drop n rows
  rw [← split] at h
  exact (append.mp h).1

end Numbered

end OperationReceipt

namespace Anchor

variable {S : Schema C V I D}

@[simp] theorem run_nil (a : Anchor D) : a.run S ([] : List (Entry C I D)) = a := rfl

@[simp] theorem run_cons (a : Anchor D) (e : Entry C I D) (entries : List (Entry C I D)) :
    a.run S (e :: entries) = (a.advance S e).run S entries := rfl

theorem run_append (a : Anchor D) (first second : List (Entry C I D)) :
    a.run S (first ++ second) = (a.run S first).run S second :=
  List.foldl_append

@[simp] theorem run_sequence (a : Anchor D) (entries : List (Entry C I D)) :
    (a.run S entries).sequence = a.sequence + entries.length := by
  induction entries generalizing a with
  | nil => rfl
  | cons e rest ih =>
    rw [run_cons, ih]
    simp only [advance, List.length_cons]
    omega

@[simp] theorem advance_withState (a : Anchor D) (e : Entry C I D) (state : State) :
    a.advance S (e.withState state) = a.advance S e := rfl

/-- `e` may follow the position `a` of a journal of `identity`. -/
structure Linked (S : Schema C V I D) (identity : Identity I) (a : Anchor D)
    (e : Entry C I D) : Prop where
  identity_eq : e.batch.identity = identity
  digest_eq : e.digest = e.checksum S
  operationId_ne : e.batch.operationId ≠ ""
  sequence_eq : e.sequence = a.sequence + 1
  sequence_lt : e.sequence < 2 ^ 63
  before_eq : e.before = a.view
  fits : checkEntrySize S e = .ok ()

namespace Linked

variable {identity : Identity I} {a : Anchor D} {e : Entry C I D}

theorem stored (h : Linked S identity a e) : e.Stored S :=
  { h with sequence_pos := by rw [h.sequence_eq]; omega }

theorem withState (h : Linked S identity a e) (state : State) :
    Linked S identity a (e.withState state) := { h with
  fits := (checkEntrySize_withState S e state).trans h.fits }

end Linked

def Chained (S : Schema C V I D) (identity : Identity I) : Anchor D → List (Entry C I D) → Prop
  | _, [] => True
  | a, e :: rest => Linked S identity a e ∧ Chained S identity (a.advance S e) rest

namespace Chained

variable {identity : Identity I} {a : Anchor D} {e : Entry C I D}
  {entries more : List (Entry C I D)}

theorem append : Chained S identity a (entries ++ more) ↔
    Chained S identity a entries ∧ Chained S identity (a.run S entries) more := by
  induction entries generalizing a with
  | nil => simp [Chained]
  | cons e rest ih => simp [Chained, ih, and_assoc]

theorem take (h : Chained S identity a entries) (n : ℕ) :
    Chained S identity a (entries.take n) := by
  have split := List.take_append_drop n entries
  rw [← split] at h
  exact (append.mp h).1

theorem drop (h : Chained S identity a entries) (n : ℕ) :
    Chained S identity (a.run S (entries.take n)) (entries.drop n) := by
  have split := List.take_append_drop n entries
  rw [← split] at h
  exact (append.mp h).2

theorem linked (h : Chained S identity a entries) (mem : e ∈ entries) :
    ∃ position, Linked S identity position e := by
  induction entries generalizing a with
  | nil => simp at mem
  | cons first rest ih =>
    rcases List.mem_cons.mp mem with rfl | later
    · exact ⟨a, h.1⟩
    · exact ih h.2 later

theorem consecutive (h : Chained S identity a entries) :
    Table.Consecutive Entry.sequence a.sequence entries := by
  induction entries generalizing a with
  | nil => trivial
  | cons first rest ih => exact ⟨h.1.sequence_eq, ih h.2⟩

theorem receipts_numbered (h : Chained S identity a entries) :
    OperationReceipt.Numbered S a.sequence (entries.map (Entry.receipt S)) := by
  induction entries generalizing a with
  | nil => trivial
  | cons first rest ih =>
    exact ⟨⟨h.1.sequence_eq, h.1.operationId_ne, rfl, rfl, S.length_requestFingerprint _⟩, ih h.2⟩

end Chained

end Anchor

/-- `imported` are the receipts of the sequences up to the origin. -/
structure History (S : Schema C V I D) (identity : Identity I) where
  origin : Anchor D
  imported : List (OperationReceipt D)
  entries : List (Entry C I D)
  origin_lt : origin.sequence < 2 ^ 63
  numbered : OperationReceipt.Numbered S 0 imported
  imported_length : imported.length = origin.sequence
  chained : Anchor.Chained S identity origin entries
  applied : ∀ e ∈ entries, e.state = .applied
  distinct : ((imported ++ entries.map (Entry.receipt S)).map (·.result.operationId)).Nodup

namespace History

variable {S : Schema C V I D} {identity : Identity I} (h : History S identity)

theorem ext {h h' : History S identity} (origin : h.origin = h'.origin)
    (imported : h.imported = h'.imported) (entries : h.entries = h'.entries) : h = h' := by
  cases h
  cases h'
  simp only at origin imported entries
  subst origin imported entries
  rfl

theorem genesis_lt : (Anchor.genesis S identity).sequence < 2 ^ 63 := by simp [Anchor.genesis]

/-- The empty history. -/
def initial (S : Schema C V I D) (identity : Identity I) : History S identity where
  origin := Anchor.genesis S identity
  imported := []
  entries := []
  origin_lt := genesis_lt
  numbered := trivial
  imported_length := rfl
  chained := trivial
  applied := by simp
  distinct := by simp

def receipts : List (OperationReceipt D) := h.imported ++ h.entries.map (Entry.receipt S)

def length : ℕ := h.origin.sequence + h.entries.length

def anchor : Anchor D := h.origin.run S h.entries

def operations : List String := h.receipts.map (·.result.operationId)

@[simp] theorem anchor_sequence : h.anchor.sequence = h.length := Anchor.run_sequence _ _

theorem length_lt : h.length < 2 ^ 63 := by
  unfold length
  rcases List.eq_nil_or_concat h.entries with none | ⟨rest, e, last⟩
  · simpa [none] using h.origin_lt
  · have chained := h.chained
    rw [last, List.concat_eq_append, Anchor.Chained.append] at chained
    have linked := chained.2.1
    have sequence := linked.sequence_eq
    have bound := linked.sequence_lt
    rw [Anchor.run_sequence] at sequence
    simp only [last, List.concat_eq_append, List.length_append, List.length_cons,
      List.length_nil]
    omega

theorem receipts_numbered : OperationReceipt.Numbered S 0 h.receipts := by
  rw [receipts, OperationReceipt.Numbered.append, h.imported_length, Nat.zero_add]
  exact ⟨h.numbered, h.chained.receipts_numbered⟩

theorem receipts_length : h.receipts.length = h.length := by
  simp [receipts, length, h.imported_length]

theorem operations_nodup : h.operations.Nodup := h.distinct

theorem mem_receipts {e : Entry C I D} (mem : e ∈ h.entries) : e.receipt S ∈ h.receipts :=
  List.mem_append_right _ (List.mem_map_of_mem mem)

theorem mem_operations {e : Entry C I D} (mem : e ∈ h.entries) :
    e.batch.operationId ∈ h.operations :=
  List.mem_map.mpr ⟨e.receipt S, h.mem_receipts mem, rfl⟩

/-- The checkpoint a node holding exactly this history computes. -/
def checkpoint : Checkpoint I D where
  format := 1
  identity := identity
  sequence := h.length
  viewDigest := h.anchor.view
  journalDigest := h.anchor.journal
  receiptDigest := S.hash (.receipts h.receipts)

@[simp] theorem checkpoint_sequence : h.checkpoint.sequence = h.length := rfl

/-- The application rows that the entries build from the initial ones. -/
def view : Result V := h.entries.foldlM (fun view e => S.replay view e.changeset) S.initial

/-- The history up to sequence `n`. -/
def upTo (n : ℕ) : History S identity where
  origin := h.origin
  imported := h.imported
  entries := h.entries.take (n - h.origin.sequence)
  origin_lt := h.origin_lt
  numbered := h.numbered
  imported_length := h.imported_length
  chained := h.chained.take _
  applied := fun e mem => h.applied e (List.mem_of_mem_take mem)
  distinct := by
    refine List.Nodup.sublist ?_ h.distinct
    exact ((List.take_sublist _ _).map _).append_left _ |>.map _

theorem upTo_length {n : ℕ} (above : h.origin.sequence ≤ n) (within : n ≤ h.length) :
    (h.upTo n).length = n := by
  unfold length at within ⊢
  simp only [upTo, List.length_take]
  omega

theorem upTo_of_length_le {n : ℕ} (beyond : h.length ≤ n) : h.upTo n = h := by
  refine ext rfl rfl ?_
  refine List.take_of_length_le ?_
  unfold length at beyond
  omega

/-- What the next entry of the history has to satisfy. -/
structure Next (e : Entry C I D) : Prop where
  linked : Anchor.Linked S identity h.anchor e
  fresh : e.batch.operationId ∉ h.operations

theorem Next.withState {h : History S identity} {e : Entry C I D} (next : h.Next e)
    (state : State) : h.Next (e.withState state) :=
  ⟨next.linked.withState state, next.fresh⟩

/-- Append an entry, whatever its stored state, as applied. -/
def push (e : Entry C I D) (next : h.Next e) : History S identity where
  origin := h.origin
  imported := h.imported
  entries := h.entries ++ [e.withState .applied]
  origin_lt := h.origin_lt
  numbered := h.numbered
  imported_length := h.imported_length
  chained := Anchor.Chained.append.mpr ⟨h.chained, next.linked.withState .applied, trivial⟩
  applied := by
    intro e' mem
    rcases List.mem_append.mp mem with old | new
    · exact h.applied e' old
    · rw [List.mem_singleton.mp new]
      rfl
  distinct := by
    have split : (h.imported ++ (h.entries ++ [e.withState .applied]).map (Entry.receipt S)).map
        (·.result.operationId) = h.operations ++ [e.batch.operationId] := by
      simp [operations, receipts]
    rw [split, List.nodup_append]
    refine ⟨h.operations_nodup, by simp, ?_⟩
    intro a old b new same
    rw [List.mem_singleton.mp new] at same
    exact next.fresh (same ▸ old)

variable {h} {e : Entry C I D} (next : h.Next e)

@[simp] theorem push_entries : (h.push e next).entries = h.entries ++ [e.withState .applied] :=
  rfl

@[simp] theorem push_origin : (h.push e next).origin = h.origin := rfl

@[simp] theorem push_receipts : (h.push e next).receipts = h.receipts ++ [e.receipt S] := by
  simp [receipts, push]

@[simp] theorem push_length : (h.push e next).length = h.length + 1 := by
  simp [length, push, Nat.add_assoc]

@[simp] theorem push_operations :
    (h.push e next).operations = h.operations ++ [e.batch.operationId] := by
  simp [operations]

@[simp] theorem push_anchor : (h.push e next).anchor = h.anchor.advance S e := by
  simp [anchor, push, Anchor.run_append]

theorem push_view {view : V} (reached : h.view = .ok view) :
    (h.push e next).view = S.replay view e.changeset := by
  have reached : h.entries.foldlM (fun view e => S.replay view e.changeset) S.initial =
      .ok view := reached
  rw [History.view, push_entries, List.foldlM_append, reached, ok_bind, List.foldlM_cons]
  exact bind_pure _

theorem push_upTo {n : ℕ} (within : n ≤ h.length) : (h.push e next).upTo n = h.upTo n := by
  refine ext rfl rfl ?_
  simp only [upTo, push_entries, push_origin]
  refine List.take_append_of_le_length ?_
  unfold length at within
  omega

/-! Growth. -/

/-- `h'` continues `h`. -/
structure Grows (h h' : History S identity) : Prop where
  origin_eq : h.origin = h'.origin
  imported_eq : h.imported = h'.imported
  entries_prefix : h.entries <+: h'.entries

namespace Grows

variable {h h' h'' : History S identity}

theorem refl (h : History S identity) : Grows h h := ⟨rfl, rfl, List.prefix_refl _⟩

theorem trans (first : Grows h h') (second : Grows h' h'') : Grows h h'' :=
  ⟨first.origin_eq.trans second.origin_eq, first.imported_eq.trans second.imported_eq,
    first.entries_prefix.trans second.entries_prefix⟩

theorem push {e : Entry C I D} (next : h.Next e) : Grows h (h.push e next) :=
  ⟨rfl, rfl, List.prefix_append _ _⟩

theorem length_le (grows : Grows h h') : h.length ≤ h'.length := by
  have := grows.entries_prefix.length_le
  unfold History.length
  rw [grows.origin_eq]
  omega

theorem upTo_eq (grows : Grows h h') {n : ℕ} (within : n ≤ h.length) : h'.upTo n = h.upTo n := by
  refine History.ext grows.origin_eq.symm grows.imported_eq.symm ?_
  obtain ⟨rest, split⟩ := grows.entries_prefix
  simp only [upTo, ← grows.origin_eq, ← split]
  refine List.take_append_of_le_length ?_
  unfold History.length at within
  omega

theorem receipts_prefix (grows : Grows h h') : h.receipts <+: h'.receipts := by
  obtain ⟨rest, split⟩ := grows.entries_prefix
  refine ⟨rest.map (Entry.receipt S), ?_⟩
  simp [receipts, grows.imported_eq, ← split]

end Grows

end History

end TerrapiVault.Replication
