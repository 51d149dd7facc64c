import TerrapiVault.Recovery.Journal

/-! Replacement of a lost primary: the baseline a plan extends, the plan, the abstract model of
its progress, and the recovery grant. A pair is ordered candidate, survivor. -/
namespace TerrapiVault.Replacement

open Replication (Result ensure)
open Recovery

structure Baseline where
  scope : String
  revision : ℕ
  digest : Id
  oldPrimary : Id
  survivor : Id
  survivorGeneration : Id
  checkpoint : Id
deriving DecidableEq

/-- Structural only: it does not establish the current membership. -/
abbrev Baseline.Valid (b : Baseline) : Prop :=
  blank b.scope = false ∧
    zeroId ∉ [b.digest, b.oldPrimary, b.survivor, b.survivorGeneration, b.checkpoint] ∧
    b.oldPrimary ≠ b.survivor

def Baseline.validate (b : Baseline) : Result Unit :=
  ensure b.Valid "plan does not extend baseline"

structure Plan where
  recoveryId : Id
  baseline : Baseline
  revision : ℕ
  candidate : Id
deriving DecidableEq

/-- The plan extends its own baseline by one revision and a new member. -/
abbrev Plan.Extends (p : Plan) (b : Baseline) : Prop :=
  p.baseline = b ∧ b.revision + 1 < 2 ^ 64 ∧ b.revision + 1 = p.revision ∧ p.recoveryId ≠ zeroId ∧
    p.candidate ≠ zeroId ∧ p.candidate ≠ b.oldPrimary ∧ p.candidate ≠ b.survivor

inductive Fence where
  | healthFailed
  | isolated (instance_ : Id)
deriving DecidableEq

inductive Tail where
  | quiescent
  | prepared
  | decided
  | corrupt
  | unknown
deriving DecidableEq

inductive Event where
  | authorize
  | fence (proof : Fence)
  | seal (checkpoint : Id) (tail : Tail)
  | install (checkpoint : Id)
  | prepare (member : Id)
  | activate (member : Id)
deriving DecidableEq

inductive Phase where
  | restricted
  | fenced
  | sourceSealed
  | candidateInstalled
deriving DecidableEq

namespace Phase

def rank : Phase → ℕ
  | restricted => 0
  | fenced => 1
  | sourceSealed => 2
  | candidateInstalled => 3

def max (a b : Phase) : Phase := if a.rank ≤ b.rank then b else a

end Phase

structure Model where
  baseline : Baseline
  plan : Option Plan
  phase : Phase
  prepared : Fin 2 → Bool
  active : Fin 2 → Bool

namespace Model

def new (b : Baseline) : Model := ⟨b, none, .restricted, both false, both false⟩

variable (m : Model) (p : Plan)

def validatePlan : Result Unit := do
  m.baseline.validate
  ensure (p.Extends m.baseline) "plan does not extend baseline"
  ensure (∀ bound ∈ m.plan, bound = p) "another plan already bound"

def member (id : Id) : Result (Fin 2) :=
  if id = p.candidate then pure 0
  else if id = p.baseline.survivor then pure 1
  else throw (.message "not a member of replacement pair")

/-- Every event but the authorization. -/
def advance : Event → Result Model
  | .authorize => pure m
  | .fence proof => do
    ensure (proof = .isolated p.baseline.oldPrimary) "health or wrong instance is not fencing"
    pure { m with phase := m.phase.max .fenced }
  | .seal checkpoint tail => do
    ensure (Phase.fenced.rank ≤ m.phase.rank ∧ checkpoint = p.baseline.checkpoint ∧
      tail = .quiescent) "source not fenced, matching and quiescent"
    pure { m with phase := m.phase.max .sourceSealed }
  | .install checkpoint => do
    ensure (Phase.sourceSealed.rank ≤ m.phase.rank ∧ checkpoint = p.baseline.checkpoint)
      "candidate does not match sealed source"
    pure { m with phase := m.phase.max .candidateInstalled }
  | .prepare id => do
    let index ← member p id
    ensure (m.phase = .candidateInstalled) "installation required"
    pure { m with prepared := Function.update m.prepared index true }
  | .activate id => do
    let index ← member p id
    ensure (m.prepared = both true) "both members must be prepared"
    pure { m with active := Function.update m.active index true }

def step (event : Event) : Result Model := do
  m.validatePlan p
  if event = .authorize then pure { m with plan := some p }
  else do
    ensure (m.plan = some p) "authorization required"
    m.advance p event

def bothActive : Bool := m.active = both true

def writeEligible (member : Id) (peerAvailable : Bool) : Bool :=
  m.plan = some p ∧ member = p.candidate ∧ m.bothActive ∧ peerAvailable

theorem new_step_authorize {b : Baseline} {p : Plan} {m' : Model} :
    (new b).step p .authorize = .ok m' ↔
      b.Valid ∧ p.Extends b ∧ { new b with plan := some p } = m' := by
  have unbound : ∀ bound ∈ (new b).plan, bound = p := fun _ none => by cases none
  rw [step, unit_bind_eq_ok, validatePlan, unit_bind_eq_ok,
    unit_bind_eq_ok, Baseline.validate, Replication.ensure_eq_ok, Replication.ensure_eq_ok,
    Replication.ensure_eq_ok, if_pos rfl, pure_eq, Except.ok.injEq]
  exact ⟨fun ⟨⟨valid, extends_, _⟩, same⟩ => ⟨valid, extends_, same⟩,
    fun ⟨valid, extends_, same⟩ => ⟨⟨valid, extends_, unbound⟩, same⟩⟩

end Model

/-- `Model::new(baseline).step(plan, Event::Authorize)`. -/
def authorizes (b : Baseline) (p : Plan) : Result Unit := do
  let _ ← (Model.new b).step p .authorize
  pure ()

@[simp] theorem authorizes_eq_ok {b : Baseline} {p : Plan} {u : Unit} :
    authorizes b p = .ok u ↔ b.Valid ∧ p.Extends b := by
  simp only [authorizes, bind_eq_ok, Model.new_step_authorize, pure_eq, and_true]
  constructor
  · rintro ⟨_, valid, extends_, _⟩
    exact ⟨valid, extends_⟩
  · rintro ⟨valid, extends_⟩
    exact ⟨_, valid, extends_, rfl⟩

/-! The grant is an ES256 token over a plan, verified against a context that a trusted
integration supplies. -/

structure Reservation where
  plan : Plan
  grantId : Id
  fencingRef : Id
deriving DecidableEq

structure Context where
  profile : Profile
  keys : List (String × List UInt8)
  now : ℕ
  maxLifetime : ℕ
  installId : String
  region : String
  reservation : Option Reservation
  fencingConfirmed : Bool

structure GrantClaims where
  version : ℕ
  iss : String
  aud : String
  action : String
  installId : String
  region : String
  grantId : Id
  iat : ℕ
  nbf : ℕ
  exp : ℕ
  plan : Plan
  fencingRef : Id

structure VerifiedGrant where
  plan : Plan
  grantId : Id

/-- The environment of the transition journal and the schema of a grant's payload. -/
structure GrantEnv (T : Type → Type) extends Env T where
  grant : List UInt8 → Option GrantClaims

def maxGrantToken : ℕ := 16 * 1024

namespace GrantEnv

variable {T : Type → Type} (E : GrantEnv T)

def trustedKey (h : String) (ctx : Context) : Result (List UInt8) := do
  ctx.profile.validate
  let header ← require (E.header (← E.decodeSegment h)) "header schema"
  ensure (header.alg = "ES256" ∧ header.typ = ctx.profile.tokenType ∧ header.kid ≠ "")
    "header purpose"
  let keys := ctx.keys.filter fun key => key.1 = header.kid
  let key ← require keys[0]? "untrusted key"
  ensure (keys.length ≤ 1) "ambiguous key"
  pure key.2

def validateClaims (p : String) (ctx : Context) : Result GrantClaims := do
  let grant ← require (E.grant (← E.decodeSegment p)) "claim schema"
  ensure (grant.version = 1 ∧ grant.iss = ctx.profile.issuer ∧ grant.aud = ctx.profile.audience ∧
    grant.action = "replace_primary") "claim purpose"
  ensure (ctx.installId ≠ "" ∧ ctx.region ≠ "" ∧ grant.installId = ctx.installId ∧
    grant.region = ctx.region) "scope"
  ensure (grant.iat ≤ grant.exp) "time order"
  let lifetime := grant.exp - grant.iat
  ensure (lifetime ≠ 0 ∧ lifetime ≤ ctx.maxLifetime ∧ grant.iat ≤ grant.nbf ∧
    grant.nbf ≤ ctx.now ∧ ctx.now < grant.exp) "time window"
  let reserved ← require ctx.reservation "authority unavailable"
  ensure (ctx.fencingConfirmed = true ∧ grant.fencingRef ≠ zeroId ∧ grant.grantId ≠ zeroId ∧
    grant.plan = reserved.plan ∧ grant.grantId = reserved.grantId ∧
    grant.fencingRef = reserved.fencingRef) "authority binding"
  authorizes grant.plan.baseline grant.plan
  pure grant

def verify (token : String) (ctx : Context) : Result VerifiedGrant := do
  ensure (token.utf8ByteSize ≤ maxGrantToken) "token limit"
  let parts := segments token
  let h ← require parts[0]? "header"
  let p ← require parts[1]? "payload"
  let s ← require parts[2]? "signature"
  ensure (parts.length ≤ 3 ∧ h.utf8ByteSize ≤ 1024) "compact shape"
  let key ← E.trustedKey h ctx
  let signature ← E.decodeSegment s
  ensure (signature.length = 64) "signature shape"
  ensure (E.signed key (h ++ "." ++ p) signature) "signature"
  let grant ← E.validateClaims p ctx
  pure ⟨grant.plan, grant.grantId⟩

variable {E} {token : String} {ctx : Context} {grant : VerifiedGrant}

theorem verify_eq_ok (verified : E.verify token ctx = .ok grant) :
    token ≠ "" ∧ grant.grantId ≠ zeroId := by
  simp only [verify, checked_ok, Recovery.require_eq_ok] at verified
  obtain ⟨_, _, _, _, payload, _, _, _, _, _, _, _, _, _, claims, accepted, rfl⟩ := verified
  simp only [validateClaims, checked_ok, Recovery.require_eq_ok] at accepted
  obtain ⟨_, _, _, _, _, _, _, _, _, _, binding, _, rfl⟩ := accepted
  refine ⟨?_, binding.2.2.1⟩
  rintro rfl
  simp [segments, Recovery.splitDots] at payload

end GrantEnv

end TerrapiVault.Replacement
