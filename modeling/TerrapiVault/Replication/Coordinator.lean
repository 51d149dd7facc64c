import TerrapiVault.Lib.CrashLogic
import TerrapiVault.Replication.TransferSteps

/-! One primary and one secondary under a single coordinator. Every node call is one
step. The coordinator's process may stop before or after it; a call on the
secondary may stay without a reply and then takes effect, if at all, before the
next call on that node. -/
namespace TerrapiVault.Replication

open CrashLogic (Script Told)

variable {D : Type}

/-- A call and the reply it got. -/
structure Exchange (D : Type) where
  call : Call D
  reply : call.Reply

/-- `inflight` is the call the secondary has not answered; `served` are the calls it
has carried out, the latest first. -/
structure Pair (D : Type) where
  primary : Node D
  secondary : Node D
  inflight : Option (Call D × Bytes32)
  served : List (Exchange D)

/-- What happens around one call: whether the unanswered call takes effect first,
which calls others make on the secondary before it, and its own fate. -/
structure Choice (D : Type) where
  land : Bool
  others : List (Call D × Bytes32)
  stopBefore : Bool
  stopAfter : Bool
  answered : Bool
  random : Bytes32

abbrev Program (D α : Type) : Type := Script (Pair D) (Choice D) Fault α

namespace Pair

def create (identity : Identity ℕ) (generation revision generation' revision' : Bytes32) :
    Pair D where
  primary := Node.create .primary identity generation revision
  secondary := Node.create .secondary identity generation' revision'
  inflight := none
  served := []

/-- The process stops after the step, or goes on with the reply. -/
def reply {α : Type} (choice : Choice D) (r : α) : Option α :=
  if choice.stopAfter then none else some r

theorem told_reply {α : Type} {crash : Pair D → Prop} {post : α → Pair D → Prop}
    {fail : Fault → Pair D → Prop} {choice : Choice D} {pair : Pair D} {r : Result α}
    (stops : choice.stopAfter = true → crash pair) (tells : Told crash post fail (pair, some r)) :
    Told crash post fail (pair, reply choice r) := by
  unfold reply
  split
  · exact stops ‹_›
  · exact tells

variable [DecidableEq D] (X : Engine D)

/-- The secondary takes a call; an earlier one without a reply is lost. -/
def serve (pair : Pair D) (c : Call D) (random : Bytes32) : Pair D × Result c.Reply :=
  match c.run X pair.secondary random with
  | .ok (reply, node) =>
    ({ pair with secondary := node, inflight := none, served := ⟨c, reply⟩ :: pair.served },
      .ok reply)
  | .error e => ({ pair with inflight := none }, .error e)

/-- Before a step the unanswered call may land, and others may use the secondary. -/
def settle (pair : Pair D) (choice : Choice D) : Pair D :=
  let landed := match pair.inflight with
    | some call => if choice.land then (pair.serve X call.1 call.2).1 else pair
    | none => pair
  choice.others.foldl (fun pair call => (pair.serve X call.1 call.2).1) landed

def onPrimary (c : Call D) : Program D c.Reply :=
  Script.step fun choice pair =>
    let pair := pair.settle X choice
    if choice.stopBefore then (pair, none)
    else
      match c.run X pair.primary choice.random with
      | .ok (r, node) => ({ pair with primary := node }, reply choice (.ok r))
      | .error e => (pair, reply choice (.error e))

def onSecondary (c : Call D) : Program D c.Reply :=
  Script.step fun choice pair =>
    let pair := pair.settle X choice
    if choice.stopBefore then (pair, none)
    else if choice.answered then
      let (pair, r) := pair.serve X c choice.random
      (pair, reply choice r)
    else
      ({ pair with inflight := some (c, choice.random) }, reply choice (.error .unanswered))

def check (p : Prop) [Decidable p] (text : String) : Program D Unit :=
  Script.ofExcept (ensure p text)

/-! `recover`. -/

def checkPair (ps ss : Summary D) : Result Unit := do
  ensure (ps.schemaContract = ss.schemaContract) "replica schema contract mismatch"
  ensure (ps.role = .primary ∧ ss.role = .secondary ∧ ps.membership = ss.membership ∧
    ps.head.identity = ss.head.identity) "pair mismatch"

def checkPeer : Program D Unit := do
  match ← onPrimary X .requiredRecoveryPeer with
  | none => pure ()
  | some expected =>
    let peer : Option Bytes32 ← onSecondary X .peerIdentity
    check (peer = some expected) "recovered replica identity mismatch"

def checkProfile (ps ss : Summary D) : Result Unit := do
  ensure (ps.synchronous = 2 ∧ ss.synchronous = 2 ∧ ps.journalMode = "wal" ∧
    ss.journalMode = "wal" ∧ ps.cipherVersion ≠ "" ∧ ss.cipherVersion ≠ "")
    "durability profile mismatch"
  ensure (ss.head.length ≤ ps.head.length) "secondary ahead of primary journal"
  ensure (max (baseFloor ps.head.base) (baseFloor ss.head.base) ≤ ss.head.length)
    "secondary below active base; explicit snapshot required"

/-- The higher base must be a checkpoint of the other node. -/
def checkBases (ps ss : JournalHead ℕ D) : Program D Unit :=
  if ps.base.isSome = true ∧ (ss.base.isNone = true ∨ baseFloor ss.base < baseFloor ps.base) then
    match ps.base with
    | none => throw (.message "missing primary base")
    | some base => do
      let actual : Checkpoint ℕ D ← onSecondary X (.checkpointAt (baseFloor ps.base))
      check (actual = base) "primary base differs from secondary history"
  else
    match ss.base with
    | none => pure ()
    | some base =>
      if base.sequence ≤ ss.length then do
        let actual : Checkpoint ℕ D ← onPrimary X (.checkpointAt base.sequence)
        check (actual = base) "secondary base differs from primary history"
      else throw (.message "secondary base differs from primary history")

/-- The applied prefix grows by an entry applied on both sides. -/
def compareEntries : ℕ → List (RefEntry D × RefEntry D) → Result ℕ
  | applied, [] => pure applied
  | applied, (a, b) :: rest => do
    ensure (a.digest = b.digest) "divergent journals"
    compareEntries (if applied = a.sequence - 1 ∧ a.state = .applied ∧ b.state = .applied
      then applied + 1 else applied) rest

/-- The comparison loop; every round reads at least one entry. -/
def comparePages (ps ss : JournalHead ℕ D) : ℕ → ℕ → ℕ → Program D ℕ
  | 0, cursor, applied => if cursor < ss.length then Script.halt else pure applied
  | fuel + 1, cursor, applied =>
    if cursor < ss.length then do
      let limit := min (ss.length - cursor) maxPageEntries
      let a ← onPrimary X (.journalPage ps cursor limit)
      let b ← onSecondary X (.journalPage ss cursor limit)
      Script.ofExcept (JournalPage.validate X.schema a ps cursor limit)
      Script.ofExcept (JournalPage.validate X.schema b ss cursor limit)
      let applied ← Script.ofExcept (compareEntries applied (a.entries.zip b.entries))
      comparePages ps ss fuel (cursor + min a.entries.length b.entries.length) applied
    else pure applied

/-- The second head is read only if the first is unchanged. -/
def unchangedHeads (ps ss : JournalHead ℕ D) : Program D Bool := do
  let head : JournalHead ℕ D ← onPrimary X .journalHead
  if head = ps then
    let summary : Summary D ← onSecondary X .summary
    pure (summary.head = ss)
  else pure false

/-- A prepared entry is removed from both nodes, any other is carried to its end. -/
def resolveEntries : ℕ → ℕ → List (RefEntry D) → Program D (ℕ × ℕ)
  | cursor, completed, [] => pure (cursor, completed)
  | _, completed, e :: rest =>
    if e.state = .prepared then do
      onSecondary X (.abort e.batch.operationId)
      onPrimary X (.abort e.batch.operationId)
      resolveEntries e.sequence completed rest
    else do
      onSecondary X (.stage e)
      onSecondary X (.apply e)
      onPrimary X (.apply e)
      resolveEntries e.sequence (completed + 1) rest

def resolvePages (length : ℕ) : ℕ → ℕ → ℕ → Program D ℕ
  | 0, cursor, completed => if cursor < length then Script.halt else pure completed
  | fuel + 1, cursor, completed =>
    if cursor < length then do
      let head ← onPrimary X .journalHead
      let page ← onPrimary X (.journalPage head cursor maxPageEntries)
      let (cursor, completed) ← resolveEntries X cursor completed page.entries
      resolvePages length fuel cursor completed
    else pure completed

def recover : Program D ℕ := do
  let ps ← onPrimary X .summary
  let ss ← onSecondary X .summary
  Script.ofExcept (checkPair ps ss)
  checkPeer X
  Script.ofExcept (checkProfile ps ss)
  checkBases X ps.head ss.head
  let cursor := max (baseFloor ps.head.base) (baseFloor ss.head.base)
  let applied ← comparePages X ps.head ss.head ss.head.length cursor cursor
  let unchanged ← unchangedHeads X ps.head ss.head
  check (unchanged = true) "journal changed during comparison"
  let completed ← resolvePages X ps.head.length ps.head.length applied 0
  let checkpoint ← onPrimary X .checkpoint
  onSecondary X (.confirmCheckpoint checkpoint)
  pure completed

/-! `commit`. -/

/-- The second `apply` is not tried when the first fails. -/
def applyBoth (decision : RefEntry D) : Program D Unit := do
  onSecondary X (.apply decision)
  onPrimary X (.apply decision)

/-- The steps from `prepare` on. -/
def replicate (batch : Batch Change ℕ) : Program D WriteResult := do
  let e ← onPrimary X (.prepare batch)
  onSecondary X (.stage e)
  let decision ← onPrimary X (.decide e.batch.operationId)
  applyBoth X decision
  match ← onPrimary X (.receipt e.batch.operationId) with
  | none => throw (.message "missing committed receipt")
  | some r => pure r.result

def commit (batch : Batch Change ℕ) : Program D WriteResult := do
  let _ ← recover X
  match ← onPrimary X (.completedResult batch) with
  | some result => pure result
  | none => replicate X batch

end Pair

/-! Write admission and base publication, and the runs of a coordinator that issues these
commands one after the other. Nothing it decides depends on its capabilities. -/

namespace Coordinator

inductive Outcome where
  | notAccepted
  | unknown
deriving DecidableEq, Repr

structure WriteFailure where
  statusCode : ℕ
  operationId : String
  outcome : Outcome
  retrySameOperationId : Bool
  reason : String
deriving DecidableEq, Repr

def invalid (id : String) : WriteFailure :=
  ⟨400, id, .notAccepted, false, "invalid_request_or_idempotency_conflict"⟩

end Coordinator

namespace Pair

open Coordinator

variable [DecidableEq D] (X : Engine D)

/-! `Coordinator::write`. -/

/-- Only an operation that is absent or prepared, with no receipt, is not accepted. -/
def outcome (entry : Result (Option (RefEntry D)))
    (receipt : Result (Option (OperationReceipt D))) : Outcome :=
  match entry, receipt with
  | .ok found, .ok none => if ∀ e ∈ found, e.state = .prepared then .notAccepted else .unknown
  | _, _ => .unknown

def unavailable (id : String) : Program D WriteFailure := do
  let entry ← (onPrimary X (.operation id)).attempt
  let receipt ← (onPrimary X (.receipt id)).attempt
  pure ⟨503, id, outcome entry receipt, true, "peer_unavailable_or_recovery_required"⟩

def refuse (id : String) : Program D (Except WriteFailure WriteResult) := do
  let failure ← unavailable X id
  pure (.error failure)

def reconcile : Program D ℕ := do
  let completed ← recover X
  onPrimary X .writeReady
  pure completed

def answer (id : String) : Program D (Except WriteFailure WriteResult) := do
  match ← (onPrimary X (.receipt id)).attempt with
  | .ok (some r) => pure (.ok r.result)
  | _ => refuse X id

/-- The outcome of a failed `decide` is uncertain. -/
def conclude (id : String) : Program D (Except WriteFailure WriteResult) := do
  match ← (onPrimary X (.decide id)).attempt with
  | .error _ =>
    let failure ← unavailable X id
    pure (.error { failure with outcome := .unknown })
  | .ok decision =>
    match ← (applyBoth X decision).attempt with
    | .error _ => refuse X id
    | .ok _ => answer X id

def propose (batch : Batch Change ℕ) : Program D (Except WriteFailure WriteResult) := do
  match ← (onPrimary X (.prepare batch)).attempt with
  | .error .constraintViolation => pure (.error (invalid batch.operationId))
  | .error _ => refuse X batch.operationId
  | .ok e =>
    match ← (onSecondary X (.stage e)).attempt with
    | .error _ => refuse X batch.operationId
    | .ok _ => conclude X batch.operationId

def submit (batch : Batch Change ℕ) : Program D (Except WriteFailure WriteResult) := do
  match ← (reconcile X).attempt with
  | .error _ => refuse X batch.operationId
  | .ok _ =>
    match ← (onPrimary X (.completedResult batch)).attempt with
    | .ok (some result) => pure (.ok result)
    | .ok none => propose X batch
    | .error _ => refuse X batch.operationId

/-- Another tenant's request, one without a name, or a name in use for another. -/
def mismatched (identity : Identity ℕ) (previous : Option (RefEntry D))
    (batch : Batch Change ℕ) : Bool :=
  batch.identity ≠ identity ∨ batch.operationId = "" ∨ ∃ e ∈ previous, e.batch ≠ batch

/-- A receipt of the operation for another request. -/
def conflicts (receipt : Option (OperationReceipt D)) (batch : Batch Change ℕ) : Bool :=
  match receipt with
  | none => false
  | some r => (r.matchesRequest X.schema batch).isOk = false

def write (batch : Batch Change ℕ) : Program D (Except WriteFailure WriteResult) := do
  match ← (onPrimary X (.operation batch.operationId)).attempt with
  | .error _ => refuse X batch.operationId
  | .ok previous =>
    let identity ← Script.look fun pair => pair.primary.identity
    if mismatched identity previous batch then pure (.error (invalid batch.operationId))
    else
      match ← (onPrimary X (.receipt batch.operationId)).attempt with
      | .error _ => refuse X batch.operationId
      | .ok receipt =>
        if conflicts X receipt batch then pure (.error (invalid batch.operationId))
        else submit X batch

/-! `publish_base` and `activate_base`. -/

/-- Two conditions on the read generations; the second is asked for only if the
first holds. -/
def sameGenerations (proposal : Publication.Proposal D) : Program D Bool := do
  let head ← onPrimary X .journalHead
  if head.readGeneration = proposal.primaryGeneration then
    let summary ← onSecondary X .summary
    pure (summary.head.readGeneration = proposal.secondaryGeneration)
  else pure false

/-- `checkpoint::fresh_generation`. -/
def freshGeneration : Program D Bytes32 :=
  Script.step fun choice pair => (pair, reply choice (.ok choice.random))

/-- The record already on the primary, or a new proposal for the current checkpoint. -/
def proposal : Program D (Publication.Proposal D) := do
  match ← onPrimary X .baseStatus with
  | some r => pure r.proposal
  | none =>
    let peer : Option (Publication.Record D) ← onSecondary X .baseStatus
    check (peer = none) "secondary has unmatched publication"
    let checkpoint ← onPrimary X .checkpoint
    let token ← freshGeneration
    let head ← onPrimary X .journalHead
    let summary ← onSecondary X .summary
    pure ⟨checkpoint, token, head.readGeneration, summary.head.readGeneration⟩

def publishBase : Program D (Publication.Record D) := do
  let _ ← recover X
  let proposal ← proposal X
  let same ← sameGenerations X proposal
  check (same = true) "publication pair generation changed"
  let actual : Checkpoint ℕ D ← onPrimary X (.checkpointAt proposal.checkpoint.sequence)
  check (actual = proposal.checkpoint) "published base not in primary history"
  let _ ← onPrimary X (.captureBase proposal)
  let peer : Publication.Record D ← onSecondary X (.captureBase proposal)
  check (peer.proposal = proposal) "peer captured different base"
  let peer : Publication.Record D ← onSecondary X (.confirmBase proposal)
  check (peer.proposal = proposal ∧ peer.phase = .confirmed) "peer has not confirmed base"
  let summary ← onSecondary X .summary
  check (summary.head.readGeneration = proposal.secondaryGeneration)
    "publication peer generation changed"
  onPrimary X (.confirmBase proposal)

/-- Both nodes hold the same confirmed record. -/
def sameRecord (r : Publication.Record D) : Program D Bool := do
  if r.phase = .confirmed then
    let peer : Option (Publication.Record D) ← onSecondary X .baseStatus
    pure (peer = some r)
  else pure false

def activateBase : Program D Unit := do
  match ← onPrimary X .baseStatus with
  | none => throw (.message "no published base to activate")
  | some r =>
    let same ← sameRecord X r
    check (same = true) "pair publication not confirmed"
    let generations ← sameGenerations X r.proposal
    check (generations = true) "activation pair generation changed"
    let _ ← recover X
    onSecondary X (.activatePublishedBase r.proposal)
    let summary ← onSecondary X .summary
    check (summary.head.base = some r.proposal.checkpoint ∧
      summary.head.readGeneration = r.proposal.secondaryGeneration)
      "peer activation not confirmed"
    onPrimary X (.activatePublishedBase r.proposal)

end Pair

/-! Runs. -/

inductive Command where
  | recover
  | commit (batch : Batch Change ℕ)
  | write (batch : Batch Change ℕ)
  | publishBase
  | activateBase

namespace Command

variable [DecidableEq D] (X : Engine D)

/-- The request a command brings in. -/
def submitted : Command → Option (Batch Change ℕ)
  | .commit batch | .write batch => some batch
  | .recover | .publishBase | .activateBase => none

/-- The pair a command leaves behind, finished or cut short. -/
def exec (command : Command) (choices : ℕ → Choice D) (pair : Pair D) : Pair D :=
  match command with
  | .recover => (Pair.recover X choices 0 pair).final
  | .commit batch => (Pair.commit X batch choices 0 pair).final
  | .write batch => (Pair.write X batch choices 0 pair).final
  | .publishBase => (Pair.publishBase X choices 0 pair).final
  | .activateBase => (Pair.activateBase X choices 0 pair).final

/-- The result a command acknowledges. -/
def acknowledged (command : Command) (choices : ℕ → Choice D) (pair : Pair D) :
    Option WriteResult :=
  match command with
  | .commit batch =>
    match (Pair.commit X batch choices 0 pair).value? with
    | some (.ok r) => some r
    | _ => none
  | .write batch =>
    match (Pair.write X batch choices 0 pair).value? with
    | some (.ok (.ok r)) => some r
    | _ => none
  | .recover | .publishBase | .activateBase => none

end Command

/-- Commands one after the other. A command may be cut short between any two calls,
so every intermediate state is the end of some run. -/
inductive Reachable [DecidableEq D] (X : Engine D) (allow : Choice D → Prop)
    (admits : Command → Prop) (start : Pair D) : Pair D → Prop
  | refl : Reachable X allow admits start start
  | command {pair : Pair D} (command : Command) (choices : ℕ → Choice D) :
      Reachable X allow admits start pair → admits command → (∀ n, allow (choices n)) →
      Reachable X allow admits start (command.exec X choices pair)

end TerrapiVault.Replication
