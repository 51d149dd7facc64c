import TerrapiVault.Maintenance.Plan
import TerrapiVault.Recovery.Journal
import TerrapiVault.Replication.Checkpoint

/-! The ordinary calls of an open typed node on its journal, receipts and data. A call
first passes the gate of the node; it returns its reply with the tables it leaves, or an
error that leaves them as they were. -/
namespace TerrapiVault.Typed

open Replication
open Recovery (require)
open Maintenance

abbrev Record (C : Type) : Type := Replication.Entry C SchemaId String

/-- An open node: its adapter and owner row, what `verify_owner` and `admission` say of its
file now, and the capacity check of an entry. -/
structure Access (C V : Type) where
  schema : Schema C V SchemaId String
  identity : Identity
  role : Role
  owner : Result Unit
  admission : Result Unit
  writeCapacity : Tables C V → Record C → Result Unit

/-- The rows of a page. The key columns of a row are those of its entry. -/
def pageRows {C V : Type} (S : Schema C V SchemaId String) :
    ℕ → List (Record C) → Result (List (Record C))
  | _, [] => pure []
  | bytes, e :: rows => do
    ensure (e.size S < maxPageBytes) "entry too large"
    if maxPageBytes < bytes + e.size S + 1 then pure []
    else
      let rest ← pageRows S (bytes + e.size S + 1) rows
      pure (e :: rest)

namespace Access

variable {C V : Type} (a : Access C V) (st : Tables C V)

def view : Result V := do
  a.owner
  pure st.data

/-- `verified_view_in`. -/
def verifiedView : Result (Option V) :=
  match st.readiness with
  | none => pure none
  | some expected => do
    let (actual, view) ← st.current a.schema a.identity false
    ensure (actual = expected) "read-admission checkpoint mismatch"
    pure (some view)

/-- Read admission moves along with an applied entry, in the same transaction. -/
def keepVerified (verified : Bool) : Result (Tables C V) :=
  if verified then do
    let (checkpoint, _) ← st.current a.schema a.identity true
    pure { st with readiness := some checkpoint }
  else pure st

def confirmCheckpoint (expected : Prefix) : Result (Unit × Tables C V) := do
  ensure (a.role = .secondary) "read admission requires secondary"
  a.admission
  let (actual, _) ← st.current a.schema a.identity true
  ensure (actual = expected) "checkpoint mismatch"
  pure ((), { st with readiness := some expected })

variable [DecidableEq C]

/-- An entry of the journal agrees with the receipts. -/
def checkEntry (e : Record C) : Result (Option (OperationReceipt String)) := do
  e.validate a.schema a.identity
  st.validateEntry a.schema e

/-- The change is replayed and thrown away; what it would leave has to fit. -/
def checkWriteCapacity (e : Record C) : Result Unit := do
  let _ ← a.schema.replayData st.data e.before e.after e.changeset
  a.writeCapacity st e

/-- The entry `prepare` builds from a captured request. -/
def preparedEntry (batch : Batch C SchemaId) (sequence : ℕ) (next : V) (changeset : List UInt8) :
    Record C :=
  let before := a.schema.viewDigest st.data
  let after := a.schema.viewDigest next
  { batch := batch
    sequence := sequence
    before := before
    after := after
    changeset := changeset
    digest := a.schema.hash (.entry batch sequence before after changeset)
    state := .prepared }

/-- The branch of `prepare` for an operation the journal already holds. -/
def prepareAgain (batch : Batch C SchemaId) (e : Record C) :
    Result (Record C × Tables C V) := do
  let _ ← a.checkEntry st e
  ensure (e.batch = batch) "idempotency key conflict"
  if e.state = .prepared then a.checkWriteCapacity st e
  pure (e, st)

def prepareNew (batch : Batch C SchemaId) (random : Bytes32) :
    Result (Record C × Tables C V) := do
  let known ← st.getReceipt a.schema batch.operationId
  ensure (known = none) "historical operation requires receipt retry"
  ensure (st.resolved = true) "recovery required"
  let _ ← st.current a.schema a.identity true
  let head ← st.head a.identity
  ensure (head.length + 1 < 2 ^ 64) "sequence overflow"
  let (next, changeset) ← a.schema.capture st.data batch.changes
  let e := a.preparedEntry st batch (head.length + 1) next changeset
  checkEntrySize a.schema e
  a.checkWriteCapacity st e
  let saved ← st.save a.schema e random
  pure (e, saved)

def prepare (batch : Batch C SchemaId) (random : Bytes32) :
    Result (Record C × Tables C V) := do
  ensure (a.role = .primary ∧ batch.identity = a.identity ∧ batch.operationId ≠ "")
    "invalid primary request"
  a.admission
  match ← st.byOperation a.schema batch.operationId with
  | some e => a.prepareAgain st batch e
  | none => a.prepareNew st batch random

def stageAgain (entry old : Record C) :
    Result (Unit × Tables C V) := do
  let _ ← a.checkEntry st old
  ensure (old.digest = entry.digest) "divergent log"
  if old.state = .prepared then a.checkWriteCapacity st old
  pure ((), st)

def stageNew (entry : Record C) (random : Bytes32) :
    Result (Unit × Tables C V) := do
  let head ← st.head a.identity
  ensure (entry.sequence = head.length + 1 ∧ st.resolved = true) "out-of-order stage"
  a.checkWriteCapacity st entry
  let saved ← st.save a.schema (entry.withState .prepared) random
  pure ((), saved)

def stage (entry : Record C) (random : Bytes32) :
    Result (Unit × Tables C V) := do
  ensure (a.role = .secondary) "only secondary stages"
  entry.validate a.schema a.identity
  checkEntrySize a.schema entry
  a.admission
  match ← st.bySequence a.schema entry.sequence with
  | some old => a.stageAgain st entry old
  | none => a.stageNew st entry random

/-- A prepared entry is decided, any other is returned as it is. -/
def decideEntry (e : Record C) (random : Bytes32) :
    Result (Record C × Tables C V) :=
  if e.state = .prepared then do
    a.checkWriteCapacity st e
    let saved ← st.save a.schema (e.withState .decided) random
    pure (e.withState .decided, saved)
  else pure (e, st)

def decide (id : String) (random : Bytes32) :
    Result (Record C × Tables C V) := do
  ensure (a.role = .primary) "only primary decides"
  a.admission
  let e ← require (← st.byOperation a.schema id) "unknown operation"
  let _ ← a.checkEntry st e
  a.decideEntry st e random

def applyEntry (e : Record C) (random : Bytes32) :
    Result (Unit × Tables C V) := do
  ensure (a.role = .secondary ∨ e.state = .decided) "primary has no durable decision"
  let verified ← a.verifiedView st
  let data ← a.schema.replayData st.data e.before e.after e.changeset
  let saved ← Store.save a.schema { st with data := data } (e.withState .applied) random
  let kept ← a.keepVerified saved verified.isSome
  pure ((), kept)

def apply (decision : Record C) (random : Bytes32) :
    Result (Unit × Tables C V) := do
  decision.validate a.schema a.identity
  ensure (decision.state ≠ .prepared) "commit decision required"
  a.admission
  let e ← require (← st.bySequence a.schema decision.sequence) "not staged"
  e.validate a.schema a.identity
  ensure (e.digest = decision.digest) "decision mismatch"
  if e.state = .applied then do
    let _ ← st.validateEntry a.schema e
    pure ((), st)
  else a.applyEntry st e random

/-- Only a prepared entry at the end of the journal can be removed. -/
def removeEntry (e : Record C) (random : Bytes32) :
    Result (Unit × Tables C V) := do
  e.validate a.schema a.identity
  let last ← if e.state = .prepared then st.tail a.schema else pure none
  ensure (e.state = .prepared ∧ last = some e) "cannot abort committed/non-tail operation"
  let log := st.log.filter fun row => row.batch.operationId ≠ e.batch.operationId
  pure ((), { st with log := log, revision := random })

def abort (id : String) (random : Bytes32) : Result (Unit × Tables C V) := do
  a.admission
  match ← st.byOperation a.schema id with
  | none => pure ((), st)
  | some e => a.removeEntry st e random

def journalPage (expected : JournalHead SchemaId String) (after limit : ℕ) :
    Result (JournalPage C SchemaId String) := do
  ensure (0 < limit ∧ limit ≤ maxPageEntries ∧ after ≤ expected.length ∧
    baseFloor expected.base ≤ after) "invalid page cursor"
  a.admission
  let head ← st.head a.identity
  ensure (head = expected) "stale journal cursor"
  let rows := (st.log.filter fun e => after < e.sequence).take limit
  let entries ← pageRows a.schema 0 rows
  let page : JournalPage C SchemaId String := ⟨expected, after, entries⟩
  page.validate a.schema expected after limit
  pure page

end Access

/-- The calls that write a node's journal or its read admission. -/
inductive Call (C : Type) where
  | prepare (batch : Batch C SchemaId)
  | stage (entry : Record C)
  | decide (id : String)
  | apply (decision : Record C)
  | abort (id : String)
  | confirmCheckpoint (expected : Prefix)

/-- The tables after a call. -/
def Call.run {C V : Type} [DecidableEq C] (a : Access C V) (st : Tables C V)
    (random : Bytes32) : Call C → Result (Tables C V)
  | .prepare batch => do
    let (_, after) ← a.prepare st batch random
    pure after
  | .stage entry => do
    let (_, after) ← a.stage st entry random
    pure after
  | .decide id => do
    let (_, after) ← a.decide st id random
    pure after
  | .apply decision => do
    let (_, after) ← a.apply st decision random
    pure after
  | .abort id => do
    let (_, after) ← a.abort st id random
    pure after
  | .confirmCheckpoint expected => do
    let (_, after) ← a.confirmCheckpoint st expected
    pure after

section

variable {C V : Type} {a : Access C V} {st after : Tables C V} {random : Bytes32} {e : Record C}

theorem Access.stage_eq_ok {u : Unit} (ok : a.stage st e random = .ok (u, after)) :
    a.admission = .ok () ∧ checkEntrySize a.schema e = .ok () ∧
      (after = st ∨ st.save a.schema (e.withState .prepared) random = .ok after) := by
  simp only [stage, unit_bind_eq_ok] at ok
  obtain ⟨_, _, fits, admitted, ok⟩ := ok
  obtain ⟨found, _, ok⟩ := bind_eq_ok.mp ok
  refine ⟨admitted, fits, ?_⟩
  cases found with
  | some old =>
    simp only [stageAgain, run_ok] at ok
    obtain ⟨_, _, _, ok⟩ := ok
    refine .inl ?_
    split_ifs at ok <;> simp only [run_ok] at ok
    · exact ok.2.2.symm
    · exact ok.2.symm
  | none =>
    simp only [stageNew, checked_ok] at ok
    obtain ⟨head, _, _, _, st', saved, _, rfl⟩ := ok
    exact .inr saved

variable [DecidableEq C]

theorem Access.prepare_eq_ok {batch : Batch C SchemaId}
    (ok : a.prepare st batch random = .ok (e, after)) :
    a.admission = .ok () ∧
      (st.byOperation a.schema batch.operationId ≠ .ok none ∧ after = st ∨
        checkEntrySize a.schema e = .ok () ∧ st.save a.schema e random = .ok after) := by
  simp only [prepare, unit_bind_eq_ok] at ok
  obtain ⟨_, admitted, ok⟩ := ok
  obtain ⟨found, lookup, ok⟩ := bind_eq_ok.mp ok
  refine ⟨admitted, ?_⟩
  cases found with
  | some old =>
    simp only [prepareAgain, run_ok] at ok
    obtain ⟨_, _, _, ok⟩ := ok
    refine .inl ⟨by simp [lookup], ?_⟩
    split_ifs at ok <;> simp only [run_ok] at ok
    · exact ok.2.2.symm
    · exact ok.2.symm
  | none =>
    simp only [prepareNew, checked_ok, Prod.exists] at ok
    obtain ⟨known, _, _, _, view, _, _, head, _, _, next, changeset, _, fits, _, st', saved, rfl, rfl⟩ :=
      ok
    exact .inr ⟨fits, saved⟩

theorem Call.run_admitted {c : Call C} (ran : c.run a st random = .ok after) :
    a.admission = .ok () := by
  cases c with
  | prepare batch =>
    obtain ⟨_, ok, _⟩ := bind_eq_ok.mp ran
    exact (Access.prepare_eq_ok ok).1
  | stage entry =>
    obtain ⟨_, ok, _⟩ := bind_eq_ok.mp ran
    exact (Access.stage_eq_ok ok).1
  | decide id =>
    simp only [run, Access.decide, run_ok] at ran
    obtain ⟨_, ⟨_, admitted, _⟩, _⟩ := ran
    exact admitted
  | apply decision =>
    simp only [run, Access.apply, run_ok] at ran
    obtain ⟨_, ⟨_, _, admitted, _⟩, _⟩ := ran
    exact admitted
  | abort id =>
    simp only [run, Access.abort, run_ok] at ran
    obtain ⟨_, ⟨admitted, _⟩, _⟩ := ran
    exact admitted
  | confirmCheckpoint expected =>
    simp only [run, Access.confirmCheckpoint, run_ok] at ran
    obtain ⟨_, ⟨_, admitted, _⟩, _⟩ := ran
    exact admitted

end

end TerrapiVault.Typed
