import TerrapiVault.Replacement.Bridge
import TerrapiVault.Replication.Recomputed

/-! A member of the pair from its recorded decision to its completion receipt. Nothing the
later calls read changes on the way: a node without compaction certificates answers every
check the same at each level. -/
namespace TerrapiVault

open Replication
open Recovery (Id zeroId require Trust)
open Maintenance

namespace Maintenance.Segments

variable {T : Type → Type} {E : Recovery.Env T} {segments : Segments}

/-- Without certificates the role of the owner row is not looked at. -/
theorem verifyCertified_plain (plain : segments.certificates = none) (base : Option Prefix)
    (identity : Identity) (role role' : Role) (trust : Option Trust)
    (terminated : ℕ × Id × Id × Id → Result Unit) :
    segments.verifyCertified E base identity role trust terminated =
      segments.verifyCertified E base identity role' trust terminated := by
  by_cases certified : segments.version = 3
  · simp [verifyCertified, verifyMetadata, certified, plain, require]
  · simp [verifyCertified, verifyMetadata, certified]

end Maintenance.Segments

namespace Replacement

inductive Level where
  | recorded
  | active
  | completed (id : Id)
deriving DecidableEq

namespace Node

variable {T : Type → Type} {E : BridgeEnv T} {X C V : Type} {host : Host X C V}
  {trust : Option Trust} {n : Node X C V}

/-- The node with the rows of a level and the role that goes with it. -/
def holding (n : Node X C V) (a : Active) (i : Fin 2) : Level → Node X C V
  | .recorded => n
  | .active => { n with active := some a, role := recoveredRole i }
  | .completed id => { n with
      active := some a
      role := recoveredRole i
      completion := some (completionOf a a.request id) }

/-- A role change is noticed only by a node with certificates. -/
theorem verifyOwner_steady {role : Role}
    (steady : n.segments.certificates = none ∨ role = n.role)
    (active : Option Active) (completion : Option Completion) :
    verifyOwner E host { n with role := role, active := active, completion := completion } trust =
      n.verifyOwner E host trust := by
  simp only [verifyOwner, historyFormat, verifyHistory, visitHistory, readSeal]
  rcases steady with plain | rfl
  · rw [Segments.verifyCertified_plain plain n.store.base n.identity role n.role]
  · rfl

theorem inspect_holding {i : Fin 2}
    (steady : n.segments.certificates = none ∨ recoveredRole i = n.role) (a : Active)
    (level : Level) (plan : Plan) (member : Id) :
    (n.holding a i level).inspect E host trust plan member =
      n.inspect E host trust plan member := by
  cases level with
  | recorded => rfl
  | active =>
    simp only [holding, inspect, verifyOwner_steady steady]
    rfl
  | completed id =>
    simp only [holding, inspect, verifyOwner_steady steady]
    rfl

/-- Without certificates the anchor of an active record is recomputed from the journal. -/
theorem checkAnchor_plain (plain : n.segments.certificates = none) {a : Active} {i : Fin 2} {view : V}
    (current : n.store.current host.schema n.identity true = .ok (a.checkpoint, view))
    (based : i = 0 → n.store.base = some a.checkpoint) :
    n.checkAnchor E host trust a i = .ok () := by
  have based : i ≠ 0 ∨ n.store.base = some a.checkpoint := or_iff_not_imp_left.mpr fun zero =>
    based (not_not.mp zero)
  simp only [checkAnchor, plain, Option.isNone_none, if_true, Store.calculate_current current,
    ok_bind, unit_bind_eq_ok]
  exact ⟨Replication.ensure_eq_ok.mpr trivial, Replication.ensure_eq_ok.mpr based⟩

theorem readSeal_eq_ok {sealed : Option Plan} :
    n.readSeal E = .ok sealed ↔
      n.sealed = sealed ∧ ∀ plan ∈ sealed, E.bytes (E.encode plan) ≤ maxSeal := by
  unfold readSeal
  cases stored : n.sealed with
  | none =>
    simp only [pure_inj]
    refine ⟨?_, And.left⟩
    rintro rfl
    simp
  | some plan =>
    simp only [unit_bind_eq_ok, Replication.ensure_eq_ok, pure_inj]
    constructor
    · rintro ⟨fits, rfl⟩
      exact ⟨rfl, by simpa using fits⟩
    · rintro ⟨rfl, fits⟩
      exact ⟨fits plan rfl, rfl⟩

theorem readActive_eq_ok {active : Option Active} :
    n.readActive E = .ok active ↔
      n.active = active ∧ ∀ a ∈ active, E.bytes (E.encode a) ≤ maxActive := by
  unfold readActive
  cases stored : n.active with
  | none =>
    simp only [pure_inj]
    refine ⟨?_, And.left⟩
    rintro rfl
    simp
  | some a =>
    simp only [unit_bind_eq_ok, Replication.ensure_eq_ok, pure_inj]
    constructor
    · rintro ⟨fits, rfl⟩
      exact ⟨rfl, by simpa using fits⟩
    · rintro ⟨rfl, fits⟩
      exact ⟨fits a rfl, rfl⟩

/-- What an inspection has found out about the node. -/
structure Inspected (E : BridgeEnv T) (host : Host X C V) (trust : Option Trust) (n : Node X C V)
    (plan : Plan) (member : Id) (found : Prepared) : Prop where
  owner : n.verifyOwner E host trust = .ok ()
  baseline : plan.baseline.Valid
  extending : plan.Extends plan.baseline
  scope : E.identityText n.identity = plan.baseline.scope
  listed : member = plan.candidate ∨ member = plan.baseline.survivor
  restored : n.restoring = false
  current : ∃ checkpoint view, n.store.current host.schema n.identity true = .ok (checkpoint, view) ∧
    E.digest checkpoint = plan.baseline.checkpoint
  generation : member ≠ plan.baseline.survivor ∨
    n.store.generation = plan.baseline.survivorGeneration
  sealed : ∀ old ∈ n.sealed, old = plan ∧ E.bytes (E.encode plan) ≤ maxSeal
  found : found = ⟨member, n.store.generation, plan.baseline.checkpoint⟩

theorem inspect_eq_ok {plan : Plan} {member : Id} {found : Prepared} :
    n.inspect E host trust plan member = .ok found ↔
      n.Inspected E host trust plan member found := by
  simp only [inspect, checked_ok, authorizes_eq_ok, readSeal_eq_ok]
  constructor
  · rintro ⟨owner, ⟨baseline, extending⟩, ⟨scope, listed⟩, restored, ⟨checkpoint, view⟩,
      current, ⟨same, generation⟩, _, ⟨rfl, fits⟩, agreed, rfl⟩
    exact ⟨owner, baseline, extending, scope, listed, restored, ⟨checkpoint, view, current, same⟩,
      generation, fun old stored => ⟨agreed old stored, agreed old stored ▸ fits old stored⟩,
      congrArg (Prepared.mk member n.store.generation) same⟩
  · rintro ⟨owner, baseline, extending, scope, listed, restored, ⟨checkpoint, view, current, same⟩,
      generation, sealed, rfl⟩
    exact ⟨owner, ⟨baseline, extending⟩, ⟨scope, listed⟩, restored,
      (checkpoint, view), current, ⟨same, generation⟩, n.sealed,
      ⟨rfl, fun plan' stored => (sealed plan' stored).1 ▸ (sealed plan' stored).2⟩,
      fun old stored => (sealed old stored).1, by rw [same]⟩

end Node

theorem Request.validate_eq_ok {q : Request} {baseline : Baseline} {u : Unit} :
    q.validate baseline = .ok u ↔
      baseline.Valid ∧ q.plan.Extends baseline ∧ q.id ≠ zeroId ∧
        (∀ i, (q.prepared i).member = q.members i ∧ (q.prepared i).generation ≠ zeroId ∧
          (q.prepared i).checkpoint = q.plan.baseline.checkpoint) ∧
        (q.prepared 1).generation = q.plan.baseline.survivorGeneration ∧
        (q.prepared 0).generation ≠ (q.prepared 1).generation := by
  simp only [validate, checkPrepared, unit_bind_eq_ok, authorizes_eq_ok,
    Replication.ensure_eq_ok, Fin.forall_fin_two, and_assoc]

/-- The record of the member in place `i`. -/
def CommittedDecision.record (d : CommittedDecision) (checkpoint : Prefix) (i : Fin 2) : Active :=
  Node.activeOf d checkpoint (d.request.prepared i).member

/-- A member that has recorded the decision and has not been activated. Its checkpoint is
that of its peer; the candidate stands on it. -/
structure Installed {T : Type → Type} (E : BridgeEnv T) {X C V : Type} (host : Host X C V)
    (trust : Option Trust) (d : CommittedDecision) (checkpoint : Prefix) (i : Fin 2)
    (n : Node X C V) : Prop where
  role : n.role = .secondary
  steady : n.segments.certificates = none ∨ i = 1
  inactive : n.active = none
  incomplete : n.completion = none
  sealed : n.sealed = some d.request.plan
  delivered : n.delivery = some (Node.deliveryOf d (d.request.prepared i))
  inspected : n.inspect E host trust d.request.plan (d.request.prepared i).member =
    .ok (d.request.prepared i)
  current : ∃ view, n.store.current host.schema n.identity true = .ok (checkpoint, view)
  based : i = 0 → n.store.base = some checkpoint
  anchored : Node.checkAnchor E host trust { n with role := recoveredRole i }
    (d.record checkpoint i) i = .ok ()
  unlost : host.loss none n.rest = .ok none
  valid : d.request.validate d.request.plan.baseline = .ok ()
  token : d.tokenDigest ≠ zeroId
  grant : d.grantId ≠ zeroId
  fits : E.bytes (E.encode (d.record checkpoint i)) ≤ maxActive

def Level.activated : Level → Level
  | .recorded => .active
  | level => level

variable {level : Level}

namespace Installed

variable {T : Type → Type} {E : BridgeEnv T} {X C V : Type} {host : Host X C V}
  {trust : Option Trust} {d : CommittedDecision} {checkpoint : Prefix} {i : Fin 2}
  {n : Node X C V} (m : Installed E host trust d checkpoint i n)
include m

theorem requireNoLossRecovery : n.requireNoLossRecovery host = .ok () := by
  simp [Node.requireNoLossRecovery, m.unlost]

theorem member_eq : (d.request.prepared i).member = d.request.members i :=
  ((Request.validate_eq_ok.mp m.valid).2.2.2.1 i).1

theorem activeIndex : Node.activeIndex (d.record checkpoint i) = .ok i := by
  have distinct := (Request.validate_eq_ok.mp m.valid).2.1.2.2.2.2.2.2
  unfold Node.activeIndex CommittedDecision.record Node.activeOf
  rw [m.member_eq]
  match i with
  | 0 => simp [Request.members]
  | 1 => simp [Request.members, distinct.symm]

theorem steadyRole : n.segments.certificates = none ∨ recoveredRole i = n.role := by
  refine m.steady.imp_right fun one => ?_
  rw [one, m.role]
  rfl

theorem inspect (level : Level) :
    (n.holding (d.record checkpoint i) i level).inspect E host trust d.request.plan
      (d.request.prepared i).member = .ok (d.request.prepared i) :=
  (Node.inspect_holding m.steadyRole ..).trans m.inspected

theorem verifyRecoveryDecision (level : Level) :
    (n.holding (d.record checkpoint i) i level).verifyRecoveryDecision E host trust d
      (d.request.prepared i) = .ok () := by
  have delivered : (n.holding (d.record checkpoint i) i level).delivery = n.delivery := by
    cases level <;> rfl
  simp only [Node.verifyRecoveryDecision, m.inspect level, delivered, m.delivered, ok_bind,
    unit_bind_eq_ok, Replication.ensure_eq_ok, queried, pure_eq]
  exact ⟨⟨trivial, i, rfl⟩, trivial⟩

theorem validateActiveAs (completion : Option Completion) :
    Node.validateActiveAs E host trust { n with
      role := recoveredRole i
      active := some (d.record checkpoint i)
      completion := completion } (recoveredRole i) (d.record checkpoint i) = .ok () := by
  have found := Node.inspect_eq_ok.mp m.inspected
  obtain ⟨view, current⟩ := m.current
  obtain ⟨_, _, current', digest⟩ := found.current
  obtain ⟨rfl, rfl⟩ := Prod.mk.inj (ok_unique current current')
  have identity : checkpoint.identity = n.identity := Store.current_identity current
  have generation : (d.request.prepared i).generation = n.store.generation :=
    congrArg Prepared.generation found.found
  have sealed := found.sealed d.request.plan m.sealed
  have read : Node.readSeal E { n with
      role := recoveredRole i
      active := some (d.record checkpoint i)
      completion := completion } = .ok (some d.request.plan) :=
    Node.readSeal_eq_ok.mpr ⟨m.sealed, by simpa using sealed.2⟩
  simp only [Node.validateActiveAs, Node.verifyOwnerAs, Node.verifyOwner_steady m.steadyRole,
    checked_ok]
  exact ⟨⟨trivial, found.owner⟩, m.valid, i, m.activeIndex, ⟨rfl, m.token, m.grant⟩, _,
    read, ⟨rfl, found.scope, rfl, rfl, generation, identity, digest⟩, m.anchored, _,
    (Maintenance.queried_eq_ok).mpr m.delivered, rfl⟩

theorem validateActive (live : level ≠ .recorded) :
    (n.holding (d.record checkpoint i) i level).validateActive E host trust
      (d.record checkpoint i) = .ok () := by
  cases level with
  | recorded => exact absurd rfl live
  | active => exact m.validateActiveAs n.completion
  | completed id => exact m.validateActiveAs _

theorem readActive (live : level ≠ .recorded) :
    (n.holding (d.record checkpoint i) i level).readActive E = .ok (some (d.record checkpoint i)) := by
  refine Node.readActive_eq_ok.mpr ⟨?_, by simpa using m.fits⟩
  cases level with
  | recorded => exact absurd rfl live
  | active => rfl
  | completed id => rfl

theorem readSeal (level : Level) :
    (n.holding (d.record checkpoint i) i level).readSeal E = .ok (some d.request.plan) := by
  have sealed := (Node.inspect_eq_ok.mp m.inspected).sealed d.request.plan m.sealed
  refine Node.readSeal_eq_ok.mpr ⟨?_, by simpa using sealed.2⟩
  cases level <;> exact m.sealed

/-- Activation writes the record once; every later call finds it. -/
theorem activateMember (level : Level) :
    (n.holding (d.record checkpoint i) i level).activateMember E host trust d i =
      .ok (n.holding (d.record checkpoint i) i level.activated) := by
  obtain ⟨view, current⟩ := m.current
  have current : Store.current host.schema (n.holding (d.record checkpoint i) i level).identity
      (n.holding (d.record checkpoint i) i level).store true = .ok (checkpoint, view) := by
    cases level <;> exact current
  have based : i ≠ 0 ∨ (n.holding (d.record checkpoint i) i level).store.base = some checkpoint := by
    refine or_iff_not_imp_left.mpr fun zero => ?_
    cases level <;> exact m.based (not_not.mp zero)
  have unlost : (n.holding (d.record checkpoint i) i level).requireNoLossRecovery host = .ok () := by
    cases level <;> exact m.requireNoLossRecovery
  have written : (n.holding (d.record checkpoint i) i level).saveActive (d.record checkpoint i) i =
      .ok (n.holding (d.record checkpoint i) i level.activated) := by
    cases level with
    | recorded =>
      simp only [Node.saveActive, Node.holding, m.inactive, unit_bind_eq_ok]
      exact ⟨Replication.ensure_eq_ok.mpr m.role, rfl⟩
    | active => simp [Node.saveActive, Node.holding, Level.activated, ensure, Checked.ensure]
    | completed id => simp [Node.saveActive, Node.holding, Level.activated, ensure, Checked.ensure]
  have validated : (n.holding (d.record checkpoint i) i level.activated).validateActiveAs E host trust
      (recoveredRole i) (d.record checkpoint i) = .ok () := by
    cases level with
    | recorded => exact m.validateActiveAs n.completion
    | active => exact m.validateActiveAs n.completion
    | completed id => exact m.validateActiveAs _
  simp only [Node.activateMember, checked_ok]
  exact ⟨m.verifyRecoveryDecision level, unlost, _, m.inspect level, rfl,
    (checkpoint, view), current, based, m.fits, _, written, validated, rfl⟩

theorem verifyRecoveryActive (live : level ≠ .recorded) :
    (n.holding (d.record checkpoint i) i level).verifyRecoveryActive E host trust d
      (d.request.prepared i) = .ok () := by
  simp only [Node.verifyRecoveryActive, checked_ok, Recovery.require_eq_ok]
  exact ⟨m.verifyRecoveryDecision level, _, m.readActive live, _, rfl, m.validateActive live,
    rfl, rfl, rfl, rfl⟩

/-- A member without a completion receipt is closed. -/
theorem recoveryAdmission_closed (short : ∀ id, level ≠ .completed id) :
    ∃ e, (n.holding (d.record checkpoint i) i level).recoveryAdmission E host trust = .error e := by
  cases level with
  | recorded =>
    have unread : (n.holding (d.record checkpoint i) i .recorded).readActive E = .ok none :=
      Node.readActive_eq_ok.mpr ⟨m.inactive, by simp⟩
    rw [Node.recoveryAdmission, m.readSeal, ok_bind, unread, ok_bind]
    exact ⟨_, rfl⟩
  | active =>
    have missing : (n.holding (d.record checkpoint i) i .active).completion = none := m.incomplete
    rw [Node.recoveryAdmission, m.readSeal, ok_bind, m.readActive (by simp),
      ok_bind]
    simp only [m.validateActive (show Level.active ≠ .recorded by simp), missing, queried]
    exact ⟨_, rfl⟩
  | completed id => exact absurd rfl (short id)

theorem recoveryAdmission {id : Id} (nonzero : id ≠ zeroId) :
    (n.holding (d.record checkpoint i) i (.completed id)).recoveryAdmission E host trust = .ok () := by
  simp only [Node.recoveryAdmission, bind_eq_ok]
  refine ⟨_, m.readSeal _, _, m.readActive (by simp), ?_⟩
  simp only [checked_ok, Maintenance.queried_eq_ok]
  exact ⟨m.validateActive (by simp), _, rfl, rfl, rfl, rfl, rfl, nonzero⟩

theorem completeMember {id : Id} (nonzero : id ≠ zeroId)
    (ready : level = .active ∨ level = .completed id) :
    (n.holding (d.record checkpoint i) i level).completeMember E host trust d.request id =
      .ok (n.holding (d.record checkpoint i) i (.completed id)) := by
  have live : level ≠ .recorded := by
    rcases ready with rfl | rfl <;> simp
  have unlost : (n.holding (d.record checkpoint i) i level).requireNoLossRecovery host = .ok () := by
    cases level <;> exact m.requireNoLossRecovery
  have written : (n.holding (d.record checkpoint i) i level).saveCompletion
      (Node.completionOf (d.record checkpoint i) d.request id) =
      .ok (n.holding (d.record checkpoint i) i (.completed id)) := by
    rcases ready with rfl | rfl
    · simp only [Node.saveCompletion, Node.holding, m.incomplete]
      rfl
    · simp only [Node.saveCompletion, Node.holding, unit_bind_eq_ok]
      exact ⟨Replication.ensure_eq_ok.mpr rfl, rfl⟩
  simp only [Node.completeMember, checked_ok, Recovery.require_eq_ok]
  exact ⟨unlost, _, m.readActive live, _, rfl, m.validateActive live, rfl, _, written,
    m.recoveryAdmission nonzero, rfl⟩

theorem recoveryMembership {id : Id} (nonzero : id ≠ zeroId)
    (lossless : host.loss trust n.rest = .ok none) :
    (n.holding (d.record checkpoint i) i (.completed id)).recoveryMembership E host trust =
      .ok (some ((d.record checkpoint i).membership E)) := by
  simp only [Node.recoveryMembership, bind_eq_ok]
  refine ⟨none, lossless, ?_⟩
  simp only [run_ok]
  exact ⟨m.recoveryAdmission nonzero, _, m.readActive (by simp), rfl⟩

end Installed

end Replacement

end TerrapiVault
