import TerrapiVault.Lib.Checked
import TerrapiVault.Lib.JsonSize
import Mathlib.Tactic.SplitIfs

/-! Data envelopes of the fixed-pair journal and the adapter that supplies the
application side. SQL execution, the session changeset codec and SHA-256 are
fields of `Schema`; a digest is an opaque value with a printed length. -/
namespace TerrapiVault.Replication

/-- `[u8; 32]`. -/
abbrev Bytes32 : Type := Vector UInt8 32

instance (priority := 2000) lawfulBytes32 : LawfulBEq Bytes32 := inferInstance

instance (priority := 2000) twoMembers : NeZero 2 := ⟨by decide⟩

/-- `constraintViolation` is the one SQLite error class the coordinator tells
apart, `sqlite` any other; `unanswered` is a remote call whose reply never came. -/
inductive Fault where
  | message (text : String)
  | constraintViolation
  | sqlite
  | unanswered
deriving DecidableEq, Repr

abbrev Result : Type → Type := Except Fault

def ensure (p : Prop) [Decidable p] (text : String) : Result Unit :=
  Checked.ensure p (Fault.message text)

variable {p : Prop}

@[simp] theorem ensure_eq_ok [Decidable p] {text : String} {u : Unit} : ensure p text = .ok u ↔ p :=
  Checked.ensure_eq_ok

/-- With the guards of the sequence. -/
theorem checked_ok : (∀ {p : Prop} [Decidable p] {text : String} {u : Unit},
      ensure p text = .ok u ↔ p) ∧ type_of% run_ok :=
  ⟨ensure_eq_ok, run_ok⟩

@[simp] theorem ensure_bind_eq_ok {α : Type} [Decidable p] {text : String} {f : Unit → Result α}
    {a : α} : (ensure p text >>= f) = .ok a ↔ p ∧ f () = .ok a :=
  Checked.ensure_bind_eq_ok

@[simp] theorem ensure_of [Decidable p] {text : String} (h : p) : ensure p text = .ok () :=
  Checked.ensure_of _ h

theorem ensure_not [Decidable p] {text : String} (h : ¬p) :
    ensure p text = .error (.message text) :=
  Checked.ensure_not _ h

theorem ensure_eq_error [Decidable p] {text : String} {fault : Fault} :
    ensure p text = .error fault ↔ ¬p ∧ .message text = fault :=
  Checked.ensure_eq_error

/-- A number SQLite can store as an integer. -/
def sqlInteger (n : ℕ) : Result ℕ := do
  ensure (n < 2 ^ 63) "out of range integral type conversion attempted"
  pure n

@[simp] theorem sqlInteger_eq_ok {n m : ℕ} : sqlInteger n = .ok m ↔ n < 2 ^ 63 ∧ n = m := by
  simp [sqlInteger]

theorem sqlInteger_of {n : ℕ} (h : n < 2 ^ 63) : sqlInteger n = .ok n :=
  sqlInteger_eq_ok.mpr ⟨h, rfl⟩

structure Identity (I : Type) where
  cluster : String
  tenant : String
  epoch : ℕ
  schema : I
deriving DecidableEq, Repr

inductive Role where
  | primary
  | secondary
deriving DecidableEq, Repr

structure Batch (C I : Type) where
  identity : Identity I
  operationId : String
  changes : List C
deriving DecidableEq, Repr

inductive State where
  | prepared
  | decided
  | applied
deriving DecidableEq, Repr

structure Entry (C I D : Type) where
  batch : Batch C I
  sequence : ℕ
  before : D
  after : D
  changeset : List UInt8
  digest : D
  state : State
deriving DecidableEq, Repr

structure WriteResult where
  operationId : String
  sequence : ℕ
deriving DecidableEq, Repr

structure OperationReceipt (D : Type) where
  fingerprintVersion : ℕ
  requestDigest : D
  resultVersion : ℕ
  result : WriteResult
deriving DecidableEq, Repr

structure Checkpoint (I D : Type) where
  format : ℕ
  identity : Identity I
  sequence : ℕ
  viewDigest : D
  journalDigest : D
  receiptDigest : D
deriving DecidableEq, Repr

/-- Every value the crate passes to `hash`, with its domain label. -/
inductive Hashed (C V I D : Type) where
  | view (view : V)
  | entry (batch : Batch C I) (sequence : ℕ) (before after : D) (changeset : List UInt8)
  | chain (identity : Identity I)
  | link (digest entry : D)
  | receipts (rows : List (OperationReceipt D))
  | snapshot (identity : Identity I) (view : V) (entries : List (Entry C I D))
      (receiptDigest : D)

/-- `capture` executes the changes in a rolled-back transaction and returns the
resulting view with the recorded changeset; `replay` applies a changeset. -/
structure Schema (C V I D : Type) where
  initial : V
  capture : V → List C → Result (V × List UInt8)
  replay : V → List UInt8 → Result V
  requestFingerprint : List C → D
  fingerprintVersion : ℕ
  hash : Hashed C V I D → D
  length : D → ℕ
  changeSize : C → ℕ
  schemaSize : I → ℕ
  fingerprintVersion_pos : 0 < fingerprintVersion
  length_hash : ∀ value, length (hash value) = 64
  length_requestFingerprint : ∀ changes, length (requestFingerprint changes) = 64

variable {C V I D : Type}

namespace Schema

variable [DecidableEq D] (S : Schema C V I D)

def viewDigest (view : V) : D := S.hash (.view view)

/-- `replay_data`: the whole-state hash is checked on both sides of the changeset. -/
def replayData (view : V) (before after : D) (changeset : List UInt8) : Result V := do
  ensure (S.viewDigest view = before) "base state mismatch"
  let next ← S.replay view changeset
  ensure (S.viewDigest next = after) "post-apply state mismatch"
  pure next

theorem replayData_eq_ok {S : Schema C V I D} {view next : V} {before after : D}
    {changeset : List UInt8} :
    S.replayData view before after changeset = .ok next ↔
      S.viewDigest view = before ∧ S.replay view changeset = .ok next ∧
        S.viewDigest next = after := by
  simp only [replayData, bind_eq_ok, ensure_eq_ok, exists_and_left, exists_const,
    pure_inj]
  constructor
  · rintro ⟨start, middle, replayed, finish, rfl⟩
    exact ⟨start, replayed, finish⟩
  · rintro ⟨start, replayed, finish⟩
    exact ⟨start, next, replayed, finish, rfl⟩

end Schema

namespace Entry

variable (S : Schema C V I D) (e : Entry C I D)

def checksum : D := S.hash (.entry e.batch e.sequence e.before e.after e.changeset)

def validate [DecidableEq I] [DecidableEq D] (identity : Identity I) : Result Unit := do
  ensure (e.batch.identity = identity) "identity/epoch/schema mismatch"
  ensure (e.digest = e.checksum S) "changeset checksum mismatch"

theorem validate_eq_ok [DecidableEq I] [DecidableEq D] {S : Schema C V I D}
    {e : Entry C I D} {identity : Identity I} {u : Unit} :
    e.validate S identity = .ok u ↔ e.batch.identity = identity ∧ e.digest = e.checksum S := by
  simp [validate]

def withState (state : State) : Entry C I D := { e with state := state }

end Entry

/-! `serde_json` sizes of the envelopes. -/

def State.name : State → String
  | .prepared => "Prepared"
  | .decided => "Decided"
  | .applied => "Applied"

section Size

open JsonSize

variable (S : Schema C V I D)

def Identity.size (identity : Identity I) : ℕ :=
  object [("cluster", text identity.cluster), ("tenant", text identity.tenant),
    ("epoch", number identity.epoch), ("schema", S.schemaSize identity.schema)]

def Batch.size (batch : Batch C I) : ℕ :=
  object [("identity", batch.identity.size S), ("operation_id", text batch.operationId),
    ("changes", array (batch.changes.map S.changeSize))]

def Entry.size (e : Entry C I D) : ℕ :=
  object [("batch", e.batch.size S), ("sequence", number e.sequence),
    ("before", 2 + S.length e.before), ("after", 2 + S.length e.after),
    ("changeset", bytes e.changeset), ("digest", 2 + S.length e.digest),
    ("state", text e.state.name)]

end Size

theorem Entry.size_withState (S : Schema C V I D) (e : Entry C I D) (state : State) :
    (e.withState state).size S + JsonSize.text e.state.name =
      e.size S + JsonSize.text state.name := by
  simp only [size, withState, JsonSize.object, JsonSize.array, List.map_cons, List.map_nil,
    List.sum_cons, List.sum_nil, List.length_cons, List.length_nil]
  omega

theorem State.text_name (state : State) :
    JsonSize.text state.name = if state = .prepared then 10 else 9 := by
  cases state <;> decide

def maxPageEntries : ℕ := 32

def maxPageBytes : ℕ := 8 * 1024 * 1024

/-- The byte a prepared entry gives up when its state is later shortened is
charged to every other state, so admission does not depend on the state. -/
def checkEntrySize (S : Schema C V I D) (e : Entry C I D) : Result Unit :=
  ensure (e.size S + (if e.state = .prepared then 0 else 1) < maxPageBytes)
    "single entry exceeds page budget"

theorem checkEntrySize_withState (S : Schema C V I D) (e : Entry C I D) (state : State) :
    checkEntrySize S (e.withState state) = checkEntrySize S e := by
  have sizes := e.size_withState S state
  rw [State.text_name, State.text_name] at sizes
  have charged : (e.withState state).size S + (if state = .prepared then 0 else 1) =
      e.size S + (if e.state = .prepared then 0 else 1) := by
    split_ifs at sizes ⊢ <;> omega
  exact congrArg (fun size => ensure (size < maxPageBytes) "single entry exceeds page budget")
    charged

theorem size_lt_of_checkEntrySize {S : Schema C V I D} {e : Entry C I D} {u : Unit}
    (h : checkEntrySize S e = .ok u) : e.size S < maxPageBytes := by
  simp only [checkEntrySize, ensure_eq_ok] at h
  omega

end TerrapiVault.Replication

namespace TerrapiVault

export Replication (checked_ok)

end TerrapiVault
