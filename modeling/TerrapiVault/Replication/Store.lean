import TerrapiVault.Lib.Table
import TerrapiVault.Replication.Envelope

/-! The protocol tables every node keeps beside its application rows, and the
statements that read and write them. SQL key columns are copies of fields of the
stored value, so a table is the list of its values in key order. A statement that
fails leaves no trace: calls return the new tables or an error. -/
namespace TerrapiVault.Replication

structure Store (C V I D : Type) where
  data : V
  log : List (Entry C I D)
  receipts : List (OperationReceipt D)
  base : Option (Checkpoint I D)
  readiness : Option (Checkpoint I D)
  generation : Bytes32
  revision : Bytes32
deriving DecidableEq

structure JournalHead (I D : Type) where
  base : Option (Checkpoint I D)
  identity : Identity I
  revision : Bytes32
  readGeneration : Bytes32
  length : ℕ
deriving DecidableEq

structure JournalPage (C I D : Type) where
  head : JournalHead I D
  after : ℕ
  entries : List (Entry C I D)

variable {C V I D : Type}

/-- `base.map_or(0, |b| b.sequence)`. -/
def baseFloor (base : Option (Checkpoint I D)) : ℕ := base.elim 0 Checkpoint.sequence

@[simp] theorem baseFloor_none : baseFloor (none : Option (Checkpoint I D)) = 0 := rfl

@[simp] theorem baseFloor_some (b : Checkpoint I D) : baseFloor (some b) = b.sequence := rfl

namespace Entry

variable (S : Schema C V I D) (e : Entry C I D)

/-- The receipt an applied entry leaves behind. -/
def receipt : OperationReceipt D where
  fingerprintVersion := S.fingerprintVersion
  requestDigest := S.requestFingerprint e.batch.changes
  resultVersion := 1
  result := ⟨e.batch.operationId, e.sequence⟩

@[simp] theorem receipt_operationId : (e.receipt S).result.operationId = e.batch.operationId :=
  rfl

@[simp] theorem receipt_sequence : (e.receipt S).result.sequence = e.sequence := rfl

@[simp] theorem receipt_withState (state : State) : (e.withState state).receipt S = e.receipt S :=
  rfl

/-- What `store::write` guarantees about a row and `decode` checks again. -/
structure Stored : Prop where
  sequence_pos : 0 < e.sequence
  sequence_lt : e.sequence < 2 ^ 63
  operationId_ne : e.batch.operationId ≠ ""
  digest_eq : e.digest = e.checksum S

theorem Stored.withState {S : Schema C V I D} {e : Entry C I D} (h : e.Stored S)
    (state : State) : (e.withState state).Stored S :=
  { h with }

end Entry

section

variable [DecidableEq I] [DecidableEq D]

def OperationReceipt.fromApplied (S : Schema C V I D) (e : Entry C I D) :
    Result (OperationReceipt D) := do
  ensure (e.state = .applied) "receipt requires applied entry"
  ensure (0 < S.fingerprintVersion) "invalid request fingerprint version"
  ensure (e.batch.operationId ≠ "" ∧ 0 < e.sequence ∧ e.sequence < 2 ^ 63) "invalid receipt key"
  e.validate S e.batch.identity
  pure (e.receipt S)

theorem OperationReceipt.fromApplied_eq_ok {S : Schema C V I D} {e : Entry C I D}
    {r : OperationReceipt D} :
    OperationReceipt.fromApplied S e = .ok r ↔
      e.state = .applied ∧ e.Stored S ∧ r = e.receipt S := by
  simp only [fromApplied, checked_ok, exists_and_left, exists_const, Entry.validate_eq_ok,
    S.fingerprintVersion_pos, true_and]
  constructor
  · rintro ⟨applied, ⟨name, pos, bound⟩, digest, rfl⟩
    exact ⟨applied, ⟨pos, bound, name, digest⟩, rfl⟩
  · rintro ⟨applied, stored, rfl⟩
    exact ⟨applied, ⟨stored.operationId_ne, stored.sequence_pos, stored.sequence_lt⟩,
      stored.digest_eq, rfl⟩

/-- `matches_request`. -/
def OperationReceipt.matchesRequest (S : Schema C V I D) (r : OperationReceipt D)
    (batch : Batch C I) : Result Unit := do
  ensure (0 < S.fingerprintVersion ∧ r.fingerprintVersion = S.fingerprintVersion ∧
    r.resultVersion = 1) "unsupported receipt version"
  ensure (batch.operationId ≠ "" ∧ 0 < r.result.sequence ∧ r.result.sequence < 2 ^ 63 ∧
    r.result.operationId = batch.operationId ∧
    r.requestDigest = S.requestFingerprint batch.changes)
    "idempotency key reused for different request"

namespace Store

variable (S : Schema C V I D)

/-! `journal::store`. -/

def decode (e : Entry C I D) : Result (Entry C I D) := do
  ensure (0 < e.sequence ∧ e.batch.operationId ≠ "") "stored journal key mismatch"
  e.validate S e.batch.identity
  pure e

def one : Option (Entry C I D) → Result (Option (Entry C I D))
  | none => pure none
  | some row => do
    let e ← decode S row
    pure (some e)

def byOperation (st : Store C V I D) (id : String) : Result (Option (Entry C I D)) :=
  one S (st.log.find? fun e => e.batch.operationId = id)

def bySequence (st : Store C V I D) (sequence : ℕ) : Result (Option (Entry C I D)) := do
  let sequence ← sqlInteger sequence
  one S (st.log.find? fun e => e.sequence = sequence)

def tail (st : Store C V I D) : Result (Option (Entry C I D)) :=
  one S st.log.getLast?

def all (st : Store C V I D) : Result (List (Entry C I D)) :=
  st.log.mapM (decode S)

/-- The upsert updates the row of the same sequence and operation; a second row for
an operation breaks the unique index. -/
def admitRow (rows : List (Entry C I D)) (e : Entry C I D) : Result Unit :=
  match rows.find? fun row => row.sequence = e.sequence with
  | some row =>
    ensure (row.batch.operationId = e.batch.operationId)
      "journal sequence belongs to another operation"
  | none =>
    Checked.ensure (∀ row ∈ rows, row.batch.operationId ≠ e.batch.operationId)
      Fault.constraintViolation

/-- The revision trigger fires on insert and on update. -/
def write (st : Store C V I D) (e : Entry C I D) (random : Bytes32) :
    Result (Store C V I D) := do
  ensure (0 < e.sequence ∧ e.sequence < 2 ^ 63 ∧ e.batch.operationId ≠ "") "invalid journal key"
  e.validate S e.batch.identity
  admitRow st.log e
  pure { st with log := Table.put Entry.sequence st.log e, revision := random }

/-! `receipts`. -/

def receipt? (st : Store C V I D) (id : String) : Option (OperationReceipt D) :=
  st.receipts.find? fun r => r.result.operationId = id

/-- `receipts::get_for`. -/
def getReceipt (st : Store C V I D) (id : String) : Result (Option (OperationReceipt D)) := do
  ensure (0 < S.fingerprintVersion) "invalid request fingerprint version"
  match st.receipt? id with
  | none => pure none
  | some r =>
    ensure (0 < r.result.sequence ∧ id ≠ "" ∧ r.result.operationId = id ∧
      r.fingerprintVersion = S.fingerprintVersion ∧ r.resultVersion = 1)
      "invalid receipt metadata/version"
    pure (some r)

/-- `receipts::insert_for`. -/
def insertReceipt (st : Store C V I D) (e : Entry C I D) : Result (Store C V I D) := do
  let receipt ← OperationReceipt.fromApplied S e
  match ← st.getReceipt S e.batch.operationId with
  | some old =>
    ensure (old = receipt) "receipt conflict"
    pure st
  | none =>
    Checked.ensure (∀ r ∈ st.receipts, r.result.operationId ≠ receipt.result.operationId ∧
      r.result.sequence ≠ receipt.result.sequence) Fault.constraintViolation
    pure { st with receipts := Table.put (·.result.sequence) st.receipts receipt }

/-- `receipts::validate_entry_for`. -/
def validateEntry (st : Store C V I D) (e : Entry C I D) :
    Result (Option (OperationReceipt D)) := do
  let actual ← st.getReceipt S e.batch.operationId
  let expected ← if e.state = .applied then some <$> OperationReceipt.fromApplied S e
    else pure none
  ensure (actual = expected) "receipt/journal mismatch"
  pure actual

/-- The crate's `save`: the journal row, and the receipt of an applied one. -/
def save (st : Store C V I D) (e : Entry C I D) (random : Bytes32) :
    Result (Store C V I D) := do
  let st ← st.write S e random
  if e.state = .applied then st.insertReceipt S e else pure st

/-! `journal`. -/

def resolved (st : Store C V I D) : Bool := st.log.all fun e => e.state = .applied

def positiveSequenceKeys (st : Store C V I D) : Result Unit :=
  ensure (∀ e ∈ st.log, 0 < e.sequence) "nonpositive journal sequence"

/-- `journal::head_for`. -/
def head (identity : Identity I) (st : Store C V I D) : Result (JournalHead I D) := do
  st.positiveSequenceKeys
  let floor ← sqlInteger (baseFloor st.base)
  let rows := st.log.filter fun e => floor < e.sequence
  let maximum := (rows.map Entry.sequence).foldr max 0
  let length := floor + rows.length
  ensure (length < 2 ^ 64) "journal length overflow"
  ensure (length = max maximum floor ∧ length < 2 ^ 63) "journal sequence gap"
  pure ⟨st.base, identity, st.revision, st.generation, length⟩

end Store

/-! `JournalPage`. -/

/-- The two writers of pages and the coordinator share this cursor check. -/
def pageCursor (head : JournalHead I D) (after limit : ℕ) : Result Unit :=
  ensure (0 < limit ∧ limit ≤ maxPageEntries ∧ after ≤ head.length ∧ baseFloor head.base ≤ after)
    "invalid page cursor/limit"

def JournalPage.validateEntries (S : Schema C V I D) (identity : Identity I) :
    ℕ → ℕ → List (Entry C I D) → Result Unit
  | _, _, [] => pure ()
  | after, bytes, e :: rest => do
    ensure (e.sequence = after + 1) "page sequence gap"
    e.validate S identity
    ensure (bytes + e.size S + 1 ≤ maxPageBytes) "page byte budget exceeded"
    validateEntries S identity (after + 1) (bytes + e.size S + 1) rest

def JournalPage.validate (S : Schema C V I D) (page : JournalPage C I D)
    (head : JournalHead I D) (after limit : ℕ) : Result Unit := do
  pageCursor head after limit
  ensure (page.head = head ∧ page.after = after) "page revision/cursor mismatch"
  ensure (page.entries.length ≤ limit ∧ page.entries.length ≤ head.length - after)
    "page exceeds requested range"
  ensure (page.entries ≠ [] ∨ after = head.length) "premature end of journal"
  JournalPage.validateEntries S head.identity after 0 page.entries

/-- Rows are read until the next one would exceed the byte budget. -/
def Store.pageEntries (S : Schema C V I D) : ℕ → List (Entry C I D) → Result (List (Entry C I D))
  | _, [] => pure []
  | bytes, e :: rows => do
    ensure (e.size S < maxPageBytes) "single entry exceeds page budget"
    if maxPageBytes < bytes + e.size S + 1 then pure []
    else
      let rest ← Store.pageEntries S (bytes + e.size S + 1) rows
      pure (e :: rest)

def Store.journalPage (S : Schema C V I D) (identity : Identity I) (st : Store C V I D)
    (expected : JournalHead I D) (after limit : ℕ) : Result (JournalPage C I D) := do
  pageCursor expected after limit
  let head ← st.head identity
  ensure (head = expected) "stale journal cursor"
  let rows := (st.log.filter fun e => after < e.sequence).take limit
  let entries ← Store.pageEntries S 0 rows
  let page : JournalPage C I D := ⟨expected, after, entries⟩
  page.validate S expected after limit
  pure page

end

end TerrapiVault.Replication
