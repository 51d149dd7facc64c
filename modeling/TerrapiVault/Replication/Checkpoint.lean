import TerrapiVault.Replication.Store

/-! Local history checkpoints. `calculate` walks the journal above the stored base
and carries the position reached as an `Anchor`: the sequence, the expected view
digest and the running chain digest. Read admission compares the stored readiness
checkpoint with a recomputed one. -/
namespace TerrapiVault.Replication

variable {C V I D : Type}

structure Anchor (D : Type) where
  sequence : ℕ
  view : D
  journal : D

namespace Anchor

variable (S : Schema C V I D)

/-- The empty history of an identity. -/
def genesis (identity : Identity I) : Anchor D :=
  ⟨0, S.viewDigest S.initial, S.hash (.chain identity)⟩

def advance (a : Anchor D) (e : Entry C I D) : Anchor D :=
  ⟨a.sequence + 1, e.after, S.hash (.link a.journal e.digest)⟩

def run (a : Anchor D) (entries : List (Entry C I D)) : Anchor D :=
  entries.foldl (advance S) a

end Anchor

namespace Store

/-- What is left of a journal that is cut to a checkpoint. The trigger on a deleted row renews
the revision. -/
def pruned (st : Store C V I D) (checkpoint : Checkpoint I D) (random : Bytes32) : Store C V I D :=
  { st with
    base := some checkpoint
    log := st.log.filter fun e => checkpoint.sequence < e.sequence
    revision := if ∀ e ∈ st.log, checkpoint.sequence < e.sequence then st.revision else random }

variable [DecidableEq I] [DecidableEq D] (S : Schema C V I D)

def checkReceipts : ℕ → List (OperationReceipt D) → Result Unit
  | _, [] => pure ()
  | count, r :: rows => do
    ensure (r.result.sequence = count + 1 ∧ r.result.operationId ≠ "" ∧
      r.fingerprintVersion = S.fingerprintVersion ∧ r.resultVersion = 1 ∧
      S.length r.requestDigest = 64) "invalid receipt prefix"
    checkReceipts (count + 1) rows

/-- `receipt_digest_from_for` over `operation_receipts` or `published_receipts`. -/
def receiptDigestFrom (rows : List (OperationReceipt D)) (upTo : ℕ) : Result D := do
  ensure (0 < S.fingerprintVersion) "invalid request fingerprint version"
  ensure (upTo < 2 ^ 63) "receipt prefix outside SQLite range"
  let rows := rows.filter fun r => r.result.sequence ≤ upTo
  checkReceipts S 0 rows
  ensure (rows.length = upTo) "incomplete receipt prefix"
  pure (S.hash (.receipts rows))

/-- The loop of `calculate_for`; the flag says that a pending entry was passed. -/
def scan (identity : Identity I) (st : Store C V I D) :
    Anchor D → Bool → List (Entry C I D) → Result (Anchor D × Bool)
  | a, pending, [] => pure (a, pending)
  | a, pending, e :: rows => do
    ensure (pending = false) "invalid journal state ordering"
    ensure (e.batch.identity = identity) "identity/epoch/schema mismatch"
    if e.state ≠ .applied then e.validate S identity
    ensure (e.batch.operationId ≠ "") "journal operation key mismatch"
    let _ ← st.validateEntry S e
    ensure (e.sequence = a.sequence + 1 ∧ e.before = a.view) "checkpoint journal chain mismatch"
    if e.state = .applied then st.scan identity (a.advance S e) false rows
    else st.scan identity a true rows

/-- Where the walk starts: the stored base, or the empty history. -/
def start (identity : Identity I) (st : Store C V I D) : Anchor D :=
  match st.base with
  | some b => ⟨b.sequence, b.viewDigest, b.journalDigest⟩
  | none => Anchor.genesis S identity

def checkBase (identity : Identity I) (st : Store C V I D) : Result Unit :=
  match st.base with
  | none => pure ()
  | some b => do
    -- the receipt digest is recomputed only after the two cheap comparisons
    if b.format = 1 ∧ b.identity = identity then
      let digest ← receiptDigestFrom S st.receipts b.sequence
      ensure (b.receiptDigest = digest) "invalid base checkpoint"
    else throw (.message "invalid base checkpoint")

/-- `calculate_for`. -/
def calculate (identity : Identity I) (st : Store C V I D) (quiescent : Bool)
    (upTo : Option ℕ) : Result (Checkpoint I D) := do
  st.positiveSequenceKeys
  st.checkBase S identity
  let floor := baseFloor st.base
  ensure (∀ n ∈ upTo, floor ≤ n ∧ n < 2 ^ 63) "checkpoint prefix before base"
  let floor ← sqlInteger floor
  let rows := st.log.filter fun e => e.sequence ≤ upTo.getD (2 ^ 63 - 1) ∧ floor < e.sequence
  let (a, pending) ← st.scan S identity (st.start S identity) false rows
  ensure ((quiescent = true ∨ upTo.isSome = true) → pending = false)
    "checkpoint requires resolved journal"
  ensure (∀ n ∈ upTo, n = a.sequence) "missing checkpoint prefix"
  if upTo.isNone then ensure (st.receipts.length = a.sequence) "orphan receipt count"
  let digest ← receiptDigestFrom S st.receipts a.sequence
  pure ⟨1, identity, a.sequence, a.view, a.journal, digest⟩

/-- `current_for`. -/
def current (identity : Identity I) (st : Store C V I D) (quiescent : Bool) :
    Result (Checkpoint I D × V) := do
  let checkpoint ← st.calculate S identity quiescent none
  ensure (S.viewDigest st.data = checkpoint.viewDigest) "checkpoint data/journal mismatch"
  pure (checkpoint, st.data)

/-- `checkpoint::verified_view`. -/
def verifiedView (identity : Identity I) (st : Store C V I D) : Result (Option V) :=
  match st.readiness with
  | none => pure none
  | some marker => do
    let (actual, view) ← st.current S identity false
    pure (if actual = marker then some view else none)

/-- `checkpoint::advance`. -/
def advanceReadiness (identity : Identity I) (st : Store C V I D) : Result (Store C V I D) := do
  let (checkpoint, _) ← st.current S identity false
  pure { st with readiness := some checkpoint }

/-- `Node::receipt`. -/
def receipt (identity : Identity I) (st : Store C V I D) (id : String) :
    Result (Option (OperationReceipt D)) := do
  match ← st.byOperation S id with
  | some e => st.validateEntry S e
  | none =>
    match ← st.getReceipt S id with
    | none => pure none
    | some r =>
      match st.base with
      | none => throw (.message "orphan receipt")
      | some base =>
        ensure (r.result.sequence ≤ base.sequence) "orphan receipt"
        let _ ← st.current S identity false
        pure (some r)

/-- `Node::completed_result`. -/
def completedResult (identity : Identity I) (st : Store C V I D) (batch : Batch C I) :
    Result (Option WriteResult) := do
  ensure (batch.identity = identity ∧ batch.operationId ≠ "") "invalid batch identity"
  match ← st.receipt S identity batch.operationId with
  | none => pure none
  | some r =>
    r.matchesRequest S batch
    pure (some r.result)

end Store

end TerrapiVault.Replication
