import TerrapiVault.Replacement.Plan
import TerrapiVault.Lib.Transaction

/-! The decision journal: one encrypted file that holds at most one recovery decision.
Every call runs in one transaction and re-checks the stored record before it acts. -/
namespace TerrapiVault.Replacement

open Replication (Fault Result ensure)
open Recovery
open Transaction (Tx)

structure Scope where
  install : String
  region : String
  profile : Profile
  baseline : Baseline
deriving DecidableEq

def Scope.validate (s : Scope) : Result Unit := do
  s.baseline.validate
  s.profile.validate
  ensure (blank s.install = false ∧ blank s.region = false ∧ s.baseline.revision < 2 ^ 63 - 1)
    "invalid decision journal scope"

structure Prepared where
  member : Id
  generation : Id
  checkpoint : Id
deriving DecidableEq

structure Request where
  id : Id
  plan : Plan
  prepared : Fin 2 → Prepared
deriving DecidableEq

namespace Request

/-- The members of the replacement pair, candidate first. -/
def members (q : Request) : Fin 2 → Id :=
  fun i => if i = 0 then q.plan.candidate else q.plan.baseline.survivor

def checkPrepared (q : Request) (i : Fin 2) : Result Unit :=
  ensure ((q.prepared i).member = q.members i ∧ (q.prepared i).generation ≠ zeroId ∧
    (q.prepared i).checkpoint = q.plan.baseline.checkpoint) "prepared binding mismatch"

def validate (q : Request) (baseline : Baseline) : Result Unit := do
  authorizes baseline q.plan
  ensure (q.id ≠ zeroId) "zero decision id"
  q.checkPrepared 0
  q.checkPrepared 1
  ensure ((q.prepared 1).generation = q.plan.baseline.survivorGeneration ∧
    (q.prepared 0).generation ≠ (q.prepared 1).generation) "survivor generation mismatch"

end Request

structure Record where
  request : Request
  token : String
  grantId : Id
  acknowledgements : Fin 2 → Bool
  completion : Option Id

structure Status where
  request : Option Request
  acknowledgements : Fin 2 → Bool
  completion : Option Id
deriving DecidableEq

structure CommittedDecision where
  request : Request
  tokenDigest : Id
  grantId : Id
deriving DecidableEq

/-- `continuity` is asked up to twice in one call; the number is the ask. -/
structure Policy where
  continuity : ℕ → Scope → Result Unit
  context : Scope → Request → Result Context
  prepared : Scope → Request → Result Unit
  applied : Scope → CommittedDecision → Prepared → Result Unit

/-- The two tables; `decision` is the row with `id = 1`. -/
structure File (T : Type → Type) where
  format : ℕ
  scope : T Scope
  decision : Option (Cell T Record)

def maxDecision : ℕ := 64 * 1024

def decisionFormat : ℕ := 2

abbrev Record.Sound (r : Record) : Prop :=
  r.token ≠ "" ∧ r.token.utf8ByteSize ≤ maxGrantToken ∧ r.grantId ≠ zeroId ∧
    ∀ id ∈ r.completion, id ≠ zeroId ∧ r.acknowledgements = both true

namespace File

variable {T : Type → Type} (E : GrantEnv T) (scope : Scope)

/-- `format == 2 && len <= MAX && parsed == scope`, in that order. -/
def checkScope (file : File T) : Result Unit := do
  ensure (file.format = decisionFormat ∧ E.bytes file.scope ≤ maxDecision)
    "decision journal scope/format mismatch"
  let stored ← E.parse file.scope
  ensure (stored = scope) "decision journal scope/format mismatch"

def readCell (cell : Cell T Record) : Result Record := do
  ensure (E.bytes cell.record ≤ maxDecision ∧ cell.digest = E.sha256 cell.record)
    "decision record integrity"
  let record ← E.parse cell.record
  record.request.validate scope.baseline
  ensure record.Sound "invalid decision history"
  pure record

def read (file : File T) : Result (Option Record) := do
  file.checkScope E scope
  match file.decision with
  | none => pure none
  | some cell => some <$> readCell E scope cell

def create : Result (File T) := do
  scope.validate
  ensure (E.bytes (E.encode scope) ≤ maxDecision) "scope limit"
  pure ⟨decisionFormat, E.encode scope, none⟩

/-- `self.read(&tx)`. -/
def readTx : Tx (File T) Fault (Option Record) := do
  let file ← Tx.read
  Tx.lift (file.read E scope)

def save (record : Record) : Tx (File T) Fault Unit := do
  Tx.lift (ensure (E.bytes (E.encode record) ≤ maxDecision) "decision record limit")
  let file ← Tx.read
  Tx.write { file with decision := some (E.cell record) }

def status : Tx (File T) Fault Status := do
  let r ← readTx E scope
  pure ⟨r.map (·.request), r.elim (both false) (·.acknowledgements), r.bind (·.completion)⟩

def decideNew (request : Request) (token : String) (policy : Policy) :
    Tx (File T) Fault Unit := do
  let ctx ← Tx.lift (policy.context scope request)
  Tx.lift (ensure (ctx.installId = scope.install ∧ ctx.region = scope.region ∧
    ctx.profile = scope.profile) "policy scope mismatch")
  let grant ← Tx.lift (E.verify token ctx)
  Tx.lift (ensure (grant.plan = request.plan) "decision/grant mismatch")
  Tx.lift (policy.prepared scope request)
  Tx.lift (policy.continuity 1 scope)
  save E ⟨request, token, grant.grantId, both false, none⟩
  Tx.commit

def decide (request : Request) (token : String) (policy : Policy) : Tx (File T) Fault Unit := do
  Tx.lift (request.validate scope.baseline)
  Tx.lift (ensure (token.utf8ByteSize ≤ maxGrantToken) "token limit")
  Tx.lift (policy.continuity 0 scope)
  match ← readTx E scope with
  | some record =>
    Tx.lift (ensure (record.request = request ∧ record.token = token)
      "immutable decision conflict")
  | none => decideNew E scope request token policy

def committed (r : Record) : CommittedDecision := ⟨r.request, E.tokenDigest r.token, r.grantId⟩

def fetch (request : Request) (policy : Policy) : Tx (File T) Fault CommittedDecision := do
  Tx.lift (policy.continuity 0 scope)
  let r ← Tx.lift (require (← readTx E scope) "decision missing")
  Tx.lift (ensure (r.request = request ∧ r.completion = none) "decision unavailable for delivery")
  pure (committed E r)

/-- `prepared.iter().position(|p| p == member)`. -/
def position (prepared : Fin 2 → Prepared) (member : Prepared) : Option (Fin 2) :=
  if prepared 0 = member then some 0 else if prepared 1 = member then some 1 else none

def acknowledge (decision : CommittedDecision) (member : Prepared) (policy : Policy) :
    Tx (File T) Fault Unit := do
  Tx.lift (policy.continuity 0 scope)
  let r ← Tx.lift (require (← readTx E scope) "decision missing")
  Tx.lift (ensure (r.request = decision.request ∧ r.grantId = decision.grantId ∧
    E.tokenDigest r.token = decision.tokenDigest) "ack decision mismatch")
  let index ← Tx.lift (require (position r.request.prepared member) "ack member mismatch")
  if r.acknowledgements index then pure ()
  else do
    Tx.lift (policy.applied scope decision member)
    Tx.lift (policy.continuity 1 scope)
    save E { r with acknowledgements := Function.update r.acknowledgements index true }
    Tx.commit

def complete (request : Request) (id : Id) (policy : Policy) : Tx (File T) Fault Unit := do
  Tx.lift (ensure (id ≠ zeroId) "zero completion id")
  Tx.lift (policy.continuity 0 scope)
  let r ← Tx.lift (require (← readTx E scope) "decision missing")
  Tx.lift (ensure (r.request = request ∧ r.acknowledgements = both true)
    "completion evidence missing")
  match r.completion with
  | some previous => Tx.lift (ensure (previous = id) "immutable completion conflict")
  | none => do
    save E { r with completion := some id }
    Tx.commit

/-- `open` reads the whole file once; nothing is written. -/
def openExisting (file : File T) : Result Unit := do
  scope.validate
  let _ ← ((status E scope).run file).1
  pure ()

end File

end TerrapiVault.Replacement
