import TerrapiVault.Replacement.Convergence

/-! Sealing a recovery source. The seal archives the completed recovery of the survivor; the
activation that has to follow compares the certificates of the survivor with the new
checkpoint, which the seal does not. -/
namespace TerrapiVault.Replacement

open Replication (Role)
open Recovery (Id zeroId Trust)
open Maintenance
open CrashLogic (Script Triple)

section Survivor

variable {T : Type → Type} {E : BridgeEnv T} {X C V : Type} {host : Host X C V}
  {trust : Option Trust} {n n' : Node X C V}

/-- A survivor right after its seal, with what the seal keeps of it. -/
structure Node.Sealed (E : BridgeEnv T) (host : Host X C V) (plan : Plan) (n n' : Node X C V) :
    Prop where
  role : n.role = .secondary
  kept : n'.role = n.role ∧ n'.identity = n.identity ∧ n'.store = n.store ∧
    n'.segments = n.segments ∧ n'.rest = n.rest
  unlost : host.loss none n.rest = .ok none
  sealed : n'.sealed = some plan
  short : E.bytes (E.encode plan) ≤ maxSeal
  inactive : n'.active = none
  cleared : n.active.isSome → n'.delivery = none ∧ n'.completion = none
  untouched : n.active = none → n'.delivery = n.delivery ∧ n'.completion = n.completion

variable {plan : Plan}

theorem Node.advanceCycle_eq_ok {a : Active}
    (advanced : n.advanceCycle E host trust a plan = .ok n') :
    n'.role = n.role ∧ n'.identity = n.identity ∧ n'.store = n.store ∧ n'.segments = n.segments ∧
      n'.rest = n.rest ∧ n'.active = none ∧ n'.delivery = none ∧ n'.completion = none := by
  simp only [advanceCycle, run_ok] at advanced
  obtain ⟨_, _, _, _, _, _, _, _, _, _, _, _, _, _, _, rfl⟩ := advanced
  exact ⟨rfl, rfl, rfl, rfl, rfl, rfl, rfl, rfl⟩

theorem Node.saveSeal_frame (saved : n.saveSeal E plan = .ok n') :
    (n'.role = n.role ∧ n'.identity = n.identity ∧ n'.store = n.store ∧
      n'.segments = n.segments ∧ n'.rest = n.rest) ∧ n'.active = n.active ∧
      n'.delivery = n.delivery ∧ n'.completion = n.completion ∧
      E.bytes (E.encode plan) ≤ maxSeal := by
  simp only [saveSeal, bind_eq_ok, readSeal_eq_ok] at saved
  obtain ⟨_, _, stored, ⟨rfl, fits⟩, saved⟩ := saved
  cases present : n.sealed with
  | some old =>
    simp only [present, checked_ok] at saved
    obtain ⟨rfl, rfl⟩ := saved
    exact ⟨⟨rfl, rfl, rfl, rfl, rfl⟩, rfl, rfl, rfl, fits _ present⟩
  | none =>
    simp only [present, checked_ok] at saved
    obtain ⟨fits, _, rfl⟩ := saved
    exact ⟨⟨rfl, rfl, rfl, rfl, rfl⟩, rfl, rfl, rfl, fits⟩

theorem Node.sealRecoverySource_eq_ok (sealing : n.sealRecoverySource E host trust plan = .ok n') :
    Node.Sealed E host plan n n' := by
  simp only [sealRecoverySource, requireNoLossRecovery, retireActive, checked_ok,
    readActive_eq_ok] at sealing
  obtain ⟨role, ⟨_, unlost, _, rfl⟩, _, ready, ⟨active, ⟨rfl, _⟩, retired⟩, _, _, saved⟩ := sealing
  obtain ⟨sealed, _⟩ := saveSeal_eq_ok saved
  obtain ⟨⟨role', identity, store, segments, rest⟩, active, delivery, completion, short⟩ :=
    saveSeal_frame saved
  cases present : n.active with
  | some a =>
    rw [present] at retired
    obtain ⟨role'', identity', store', segments', rest', active', delivery', completion'⟩ :=
      advanceCycle_eq_ok retired
    exact ⟨role, ⟨role'.trans role'', identity.trans identity', store.trans store',
      segments.trans segments', rest.trans rest'⟩, unlost, sealed, short, active.trans active',
      fun _ => ⟨delivery.trans delivery', completion.trans completion'⟩,
      fun missing => by rw [present] at missing; cases missing⟩
  | none =>
    rw [present] at retired
    obtain rfl : n = ready := Except.ok.inj retired
    exact ⟨role, ⟨role', identity, store, segments, rest⟩, unlost, sealed, short,
      active.trans present, fun some => by simp [present] at some,
      fun _ => ⟨delivery, completion⟩⟩

theorem Node.saveDelivery_frame {receipt : Delivery} (saved : n.saveDelivery receipt = .ok n') :
    n'.active = n.active ∧ n'.completion = n.completion := by
  unfold saveDelivery at saved
  split at saved
  · simp only [run_ok] at saved
    obtain ⟨_, rfl⟩ := saved
    exact ⟨rfl, rfl⟩
  · cases saved
    exact ⟨rfl, rfl⟩

theorem Node.saveActive_active {a : Active} {i : Fin 2} (saved : n.saveActive a i = .ok n') :
    n'.active = some a := by
  unfold saveActive at saved
  split at saved
  · rename_i old present
    simp only [checked_ok] at saved
    obtain ⟨rfl, rfl⟩ := saved
    exact present
  · simp only [run_ok] at saved
    obtain ⟨_, rfl⟩ := saved
    rfl

theorem Node.activateMember_eq_ok {d : CommittedDecision} {i : Fin 2}
    (called : n.activateMember E host trust d i = .ok n') :
    ∃ checkpoint view, n.store.current host.schema n.identity true = .ok (checkpoint, view) ∧
      n.saveActive (activeOf d checkpoint (d.request.prepared i).member) i = .ok n' ∧
      n'.validateActiveAs E host trust (recoveredRole i)
        (activeOf d checkpoint (d.request.prepared i).member) = .ok () := by
  simp only [activateMember, run_ok] at called
  obtain ⟨_, _, _, _, _, ⟨checkpoint, view⟩, current, _, _, next, saved, validated, rfl⟩ := called
  exact ⟨checkpoint, view, current, saved, validated⟩

theorem Node.completeMember_eq_ok {request : Request} {id : Id}
    (called : n.completeMember E host trust request id = .ok n') :
    n.active.isSome = true ∧ n'.completion.isSome = true ∧ n'.active = n.active ∧
      n'.sealed = n.sealed ∧ n'.cycles = n.cycles ∧ n'.runtime = n.runtime := by
  simp only [completeMember, run_ok, readActive_eq_ok, Recovery.require_eq_ok] at called
  obtain ⟨_, _, ⟨rfl, _⟩, a, active, _, _, next, saved, _, rfl⟩ := called
  unfold saveCompletion at saved
  split at saved
  · rename_i old present
    simp only [run_ok] at saved
    obtain ⟨_, rfl⟩ := saved
    exact ⟨by rw [active]; rfl, by rw [present]; rfl, rfl, rfl, rfl, rfl⟩
  · obtain rfl := Except.ok.inj saved
    exact ⟨by rw [active]; rfl, rfl, rfl, rfl, rfl, rfl⟩

/-- The node with a sealed plan and the receipt of a decision. -/
def Node.recording (n : Node X C V) (plan : Plan) (receipt : Option Delivery) : Node X C V :=
  { n with sealed := some plan, checkpointVersion := 2, delivery := receipt }

theorem Node.verifyOwner_version (owner : n.verifyOwner E host trust = .ok ()) :
    n.checkpointVersion = if n.sealed.isSome then 2 else 1 := by
  simp only [verifyOwner, checked_ok] at owner
  obtain ⟨_, _, _, _, _, _, version, _⟩ := owner
  exact version

/-- A node that was not sealed has no history, so the first seal does not disturb it. -/
theorem Node.verifyOwner_recording (owner : n.verifyOwner E host trust = .ok ())
    (agreed : ∀ old ∈ n.sealed, old = plan) (receipt : Option Delivery) :
    (n.recording plan receipt).verifyOwner E host trust = .ok () := by
  have version := verifyOwner_version owner
  cases present : n.sealed with
  | some old =>
    obtain rfl : old = plan := agreed old present
    have same : n.recording old receipt = { n with delivery := receipt } := by
      rw [recording, ← present]
      simp only [present, Option.isSome_some, if_true] at version
      rw [← version]
    rw [same]
    exact owner
  | none =>
    simp only [verifyOwner, checked_ok] at owner ⊢
    obtain ⟨initial, format, formatted, history, certified, capacity, _, contract⟩ := owner
    have history : (n.recording plan receipt).verifyHistory E format = .ok () := by
      unfold verifyHistory at history ⊢
      split at history
      · rename_i one
        rw [if_pos one]
        exact history
      · split at history
        · simp only [visitHistory, checked_ok, readSeal_eq_ok, present] at history
          obtain ⟨_, ⟨_, _, walk, _, _, ⟨rfl, _⟩, ⟨some, none⟩, _⟩, _⟩ := history
          rw [none] at some
          cases some
        · cases history
    exact ⟨initial, format, formatted, history, certified, capacity, rfl, contract⟩

theorem Node.inspect_recording {member : Id} {found : Prepared}
    (inspected : n.inspect E host trust plan member = .ok found)
    (short : E.bytes (E.encode plan) ≤ maxSeal) (receipt : Option Delivery) :
    (n.recording plan receipt).inspect E host trust plan member = .ok found := by
  have h := inspect_eq_ok.mp inspected
  refine inspect_eq_ok.mpr { h with
    owner := verifyOwner_recording h.owner (fun old stored => (h.sealed old stored).1) receipt
    sealed := ?_ }
  rintro old ⟨⟩
  exact ⟨rfl, short⟩

/-- An inspected node takes the seal of the plan, or has it already. -/
theorem Node.saveSeal_inspected {member : Id} {found : Prepared}
    (inspected : n.inspect E host trust plan member = .ok found)
    (short : E.bytes (E.encode plan) ≤ maxSeal) :
    n.saveSeal E plan = .ok (n.recording plan n.delivery) := by
  have h := inspect_eq_ok.mp inspected
  have version := verifyOwner_version h.owner
  simp only [saveSeal, bind_eq_ok, authorizes_eq_ok, readSeal_eq_ok]
  refine ⟨(), ⟨h.baseline, h.extending⟩, n.sealed, ⟨rfl, ?_⟩, ?_⟩
  · intro old stored
    rw [(h.sealed old stored).1]
    exact short
  · cases present : n.sealed with
    | some old =>
      obtain rfl := (h.sealed old present).1
      simp only [present, Option.isSome_some, if_true] at version
      simp only [checked_ok]
      refine ⟨trivial, ?_⟩
      rw [recording, ← present, ← version]
    | none =>
      simp only [present, Option.isSome_none, Bool.false_eq_true, if_false] at version
      simp only [checked_ok]
      exact ⟨short, version, rfl⟩

/-- A decision reaches a member that holds no other. -/
theorem Node.recordRecoveryDecision_fresh {d : CommittedDecision} {member : Id} {i : Fin 2}
    (inspected : n.inspect E host trust d.request.plan member = .ok (d.request.prepared i))
    (short : E.bytes (E.encode d.request.plan) ≤ maxSeal) (undelivered : n.delivery = none)
    (unlost : host.loss none n.rest = .ok none) :
    n.recordRecoveryDecision E host trust d member =
      .ok (n.recording d.request.plan (some (deliveryOf d (d.request.prepared i)))) := by
  simp only [recordRecoveryDecision, requireNoLossRecovery, checked_ok]
  refine ⟨⟨none, unlost, rfl⟩, _, inspected, ⟨i, rfl⟩, _, saveSeal_inspected inspected short,
    ?_⟩
  simp only [saveDelivery, recording, undelivered]
  rfl

theorem Node.sealRecoverySource_inspect
    (sealing : n.sealRecoverySource E host trust plan = .ok n') :
    n'.inspect E host trust plan plan.baseline.survivor =
      .ok ⟨plan.baseline.survivor, n'.store.generation, plan.baseline.checkpoint⟩ := by
  have sealed := sealRecoverySource_eq_ok sealing
  simp only [sealRecoverySource, bind_eq_ok] at sealing
  obtain ⟨_, _, _, _, _, _, ready, _, found, inspected, saved⟩ := sealing
  obtain rfl : n' = ready.recording plan ready.delivery :=
    ok_unique saved (saveSeal_inspected inspected sealed.short)
  have again := inspect_recording inspected sealed.short ready.delivery
  rwa [(inspect_eq_ok.mp again).found] at again

end Survivor

section Runs

variable {T : Type → Type} (E : BridgeEnv T) {X C V : Type} (host : Host X C V)
  (trust : Option Trust)

/-- One step in the life of a survivor. Ordinary writes, compaction and certified
maintenance leave the owner and the recovery tables alone. -/
inductive Node.Moves : Node X C V → Node X C V → Prop where
  | work {n n' : Node X C V} (owner : n'.role = n.role ∧ n'.identity = n.identity)
      (tables : n'.sealed = n.sealed ∧ n'.delivery = n.delivery ∧ n'.active = n.active ∧
        n'.completion = n.completion ∧ n'.cycles = n.cycles) : Moves n n'
  | seal_ {n n' : Node X C V} (plan : Plan)
      (called : n.sealRecoverySource E host trust plan = .ok n') : Moves n n'
  | record {n n' : Node X C V} (d : CommittedDecision)
      (called : n.recordRecoveryDecision E host trust d d.request.plan.baseline.survivor = .ok n') :
      Moves n n'
  | activate {n n' : Node X C V} (d : CommittedDecision)
      (called : n.activateMember E host trust d 1 = .ok n') : Moves n n'
  | complete {n n' : Node X C V} (request : Request) (id : Id)
      (called : n.completeMember E host trust request id = .ok n') : Moves n n'

/-- A new file has none of the recovery tables. -/
def Node.Reachable (n : Node X C V) : Prop :=
  ∃ created : Node X C V, created.sealed = none ∧ created.delivery = none ∧
    created.active = none ∧ created.completion = none ∧ created.cycles = none ∧
    Relation.ReflTransGen (Node.Moves E host trust) created n

variable {E host trust}

/-- A completion receipt never stands without its active record. -/
def Node.Orderly (n : Node X C V) : Prop := n.active = none → n.completion = none

theorem Node.Moves.orderly {n n' : Node X C V} (moves : Node.Moves E host trust n n')
    (orderly : n.Orderly) : n'.Orderly := by
  intro inactive
  cases moves with
  | work owner tables =>
    rw [tables.2.2.2.1]
    exact orderly (tables.2.2.1 ▸ inactive)
  | seal_ plan called =>
    have sealed := sealRecoverySource_eq_ok called
    cases present : n.active with
    | some a => exact (sealed.cleared (by simp [present])).2
    | none => exact (sealed.untouched present).2.trans (orderly present)
  | record d called =>
    simp only [recordRecoveryDecision, bind_eq_ok] at called
    obtain ⟨_, _, _, _, _, _, middle, saved, delivered⟩ := called
    obtain ⟨_, active, _, completion, _⟩ := saveSeal_frame saved
    obtain ⟨active', completion'⟩ := saveDelivery_frame delivered
    rw [completion', completion]
    exact orderly (active ▸ active' ▸ inactive)
  | activate d called =>
    obtain ⟨_, _, _, saved, _⟩ := activateMember_eq_ok called
    rw [saveActive_active saved] at inactive
    cases inactive
  | complete request id called =>
    obtain ⟨present, _, same, _⟩ := completeMember_eq_ok called
    simp [← same, inactive] at present

theorem Node.Reachable.orderly {n : Node X C V} (reachable : n.Reachable E host trust) :
    n.Orderly := by
  obtain ⟨created, _, _, _, incomplete, _, run⟩ := reachable
  induction run with
  | refl => exact fun _ => incomplete
  | tail _ moves ih => exact moves.orderly ih

end Runs

section Anchors

variable {T : Type → Type} {E : BridgeEnv T} {X C V : Type} {host : Host X C V}
  {trust : Option Trust} {n : Node X C V}

/-- The node has no compaction certificates, or their lineage starts at its current
checkpoint. -/
def Node.Anchored (E : BridgeEnv T) (host : Host X C V) (trust : Option Trust) (n : Node X C V) :
    Prop :=
  n.segments.certificates = none ∨ ∃ lineage checkpoint view,
    n.segments.verifyMetadata E.toEnv n.store.base n.identity n.role 3 trust = .ok (some lineage) ∧
    n.store.current host.schema n.identity true = .ok (checkpoint, view) ∧
    lineage.sourceAnchor = checkpoint

theorem Node.checkAnchor_congr {n' : Node X C V} (role : n'.role = n.role)
    (identity : n'.identity = n.identity) (store : n'.store = n.store)
    (segments : n'.segments = n.segments) (a : Active) (i : Fin 2) :
    n'.checkAnchor E host trust a i = n.checkAnchor E host trust a i := by
  simp only [checkAnchor, role, identity, store, segments]

theorem Node.checkAnchor_survivor {a : Active} {view : V}
    (current : n.store.current host.schema n.identity true = .ok (a.checkpoint, view)) :
    n.checkAnchor E host trust a 1 = .ok () ↔ n.Anchored E host trust := by
  cases certificates : n.segments.certificates with
  | none =>
    refine iff_of_true (checkAnchor_plain certificates current ?_) (.inl certificates)
    intro zero
    cases zero
  | some rows =>
    simp only [checkAnchor, Anchored, certificates, Option.isNone_some, Bool.false_eq_true,
      if_false, checked_ok, Recovery.require_eq_ok, reduceCtorEq, false_or]
    constructor
    · rintro ⟨_, verified, lineage, rfl, anchor, _⟩
      exact ⟨lineage, _, view, verified, current, anchor⟩
    · rintro ⟨lineage, checkpoint, view', verified, current', rfl⟩
      obtain ⟨same, _⟩ := Prod.mk.inj (ok_unique current current')
      have based := (Segments.verifyMetadata_eq_ok verified).1
      exact ⟨_, verified, lineage, rfl, same.symm, based.symm⟩

end Anchors

section Replacing

variable {T : Type → Type} (E : BridgeEnv T) {X C V : Type} (host : Host X C V)
  (trust : Option Trust) (scope : Scope)

/-- What `finish_snapshot` leaves of a new secondary file. -/
structure Node.Restored (m : Manifest) (n : Node X C V) : Prop where
  role : n.role = .secondary
  plain : n.segments.certificates = none
  unsealed : n.sealed = none
  undelivered : n.delivery = none
  inactive : n.active = none
  incomplete : n.completion = none
  unlost : host.loss none n.rest = .ok none
  encoded : ∃ text, m.encode E.toEnv = .ok text
  base : n.store.base = some m.checkpoint
  current : ∃ view, n.store.current host.schema n.identity true = .ok (m.checkpoint, view)

/-- The sealed survivor, a candidate restored from its publication, and a journal that has
decided on the two as they were inspected. -/
structure Replacing (plan : Plan) (candidate survivor : Node X C V) (d : CommittedDecision)
    (journal : File T) : Prop where
  planned : d.request.plan = plan
  restored : ∃ m, candidate.Restored E host m
  first : candidate.inspect E host trust plan plan.candidate = .ok (d.request.prepared 0)
  second : survivor.inspect E host trust plan plan.baseline.survivor = .ok (d.request.prepared 1)
  decided : ∃ file token policy, File.read E.toGrantEnv scope file = .ok none ∧
    (File.decide E.toGrantEnv scope d.request token policy).run file = (.ok (), journal) ∧
    E.tokenDigest token ≠ zeroId
  fetched : ∃ policy, ((File.fetch E.toGrantEnv scope d.request policy).run journal).1 = .ok d
  collisionFree : ∀ a b va vb,
    candidate.store.current host.schema candidate.identity true = .ok (a, va) →
    survivor.store.current host.schema survivor.identity true = .ok (b, vb) →
    E.digest a = E.digest b → a = b

def Pair.of (candidate survivor : Node X C V) (journal : File T) : Pair T X C V :=
  ⟨fun i => if i = 0 then candidate else survivor, journal⟩

/-- Recording, activation and completion all succeed and the survivor is admitted. -/
def Recovers (d : CommittedDecision) (policy : Policy) (id : Id) (candidate survivor : Node X C V)
    (journal : File T) : Prop :=
  ∃ c s activated completed,
    candidate.recordRecoveryDecision E host trust d d.request.plan.candidate = .ok c ∧
    survivor.recordRecoveryDecision E host trust d d.request.plan.baseline.survivor = .ok s ∧
    (Pair.activatePair E host trust scope d.request policy (fun _ => false) 0
      (Pair.of c s journal)).value? = some (.ok ()) ∧
    (Pair.activatePair E host trust scope d.request policy (fun _ => false) 0
      (Pair.of c s journal)).final = activated ∧
    (Pair.completePair E host trust scope d.request policy id (fun _ => false) 0
      activated).value? = some (.ok ()) ∧
    (Pair.completePair E host trust scope d.request policy id (fun _ => false) 0
      activated).final = completed ∧
    (completed.nodes 1).recoveryAdmission E host trust = .ok ()

end Replacing

section Outcome

variable {T : Type → Type} {E : BridgeEnv T} {X C V : Type} {host : Host X C V}
  {trust : Option Trust} {scope : Scope} {plan : Plan} {source candidate survivor : Node X C V}
  {d : CommittedDecision} {journal : File T} {policy : Policy} {id : Id}

theorem Pair.activatePair_returned {s : Pair T X C V} {stops : ℕ → Bool}
    (value : (Pair.activatePair E host trust scope d.request policy stops 0 s).value? =
      some (.ok ())) :
    ∃ d' n, Pair.fetch E scope d.request policy s = .ok d' ∧
      (s.nodes 1).activateMember E host trust d' 1 = .ok n := by
  unfold Pair.activatePair at value
  obtain ⟨_, s₁, _, paired, value⟩ := Script.bind_returned value
  obtain ⟨d', s₂, _, fetched, value⟩ := Script.bind_returned value
  obtain ⟨_, s₃, _, first, value⟩ := Script.bind_returned value
  obtain ⟨_, s₄, _, second, value⟩ := Script.bind_returned value
  obtain ⟨_, s₅, _, activated, _⟩ := Script.bind_returned value
  obtain ⟨_, rfl⟩ := Pair.consult_done paired
  obtain ⟨fetched, rfl⟩ := Pair.consult_done fetched
  obtain ⟨_, rfl⟩ := Pair.consult_done first
  obtain ⟨_, rfl⟩ := Pair.consult_done second
  have called := Pair.perform_done activated
  unfold Pair.onNode at called
  split at called
  · rename_i n accepted
    exact ⟨d', n, fetched, accepted⟩
  · cases called

variable (sealed : Node.Sealed E host plan source survivor)
  (replacing : Replacing E host trust scope plan candidate survivor d journal)
include sealed replacing

theorem Replacing.short : E.bytes (E.encode d.request.plan) ≤ maxSeal :=
  replacing.planned ▸ sealed.short

theorem Replacing.recorded (undelivered : survivor.delivery = none) :
    candidate.recordRecoveryDecision E host trust d d.request.plan.candidate =
        .ok (candidate.recording plan (some (Node.deliveryOf d (d.request.prepared 0)))) ∧
      survivor.recordRecoveryDecision E host trust d d.request.plan.baseline.survivor =
        .ok (survivor.recording plan (some (Node.deliveryOf d (d.request.prepared 1)))) := by
  obtain ⟨m, restored⟩ := replacing.restored
  obtain rfl := replacing.planned
  have unlost : host.loss none survivor.rest = .ok none := by
    rw [sealed.kept.2.2.2.2]
    exact sealed.unlost
  exact ⟨Node.recordRecoveryDecision_fresh replacing.first sealed.short restored.undelivered
    restored.unlost, Node.recordRecoveryDecision_fresh replacing.second sealed.short undelivered
    unlost⟩

theorem Replacing.fetch_eq (sizes : Sizes E) {d' : CommittedDecision}
    (fetched : ((File.fetch E.toGrantEnv scope d.request policy).run journal).1 = .ok d') :
    d' = d := by
  obtain ⟨file, token, _, fresh, decided, _⟩ := replacing.decided
  obtain ⟨r, decided, _⟩ := Decided.of_decide sizes fresh decided replacing.fetched
    (replacing.short sealed)
  exact (File.fetch_eq_ok decided.read fetched).trans decided.decision

theorem Replacing.begun (sizes : Sizes E) (incomplete : survivor.completion = none)
    (anchored : source.Anchored E host trust) :
    ∃ checkpoint r, Begun E host trust scope d checkpoint r (Pair.of
      (candidate.recording plan (some (Node.deliveryOf d (d.request.prepared 0))))
      (survivor.recording plan (some (Node.deliveryOf d (d.request.prepared 1)))) journal) := by
  obtain ⟨m, restored⟩ := replacing.restored
  obtain ⟨text, encoded⟩ := restored.encoded
  obtain ⟨file, token, policy, fresh, decided, nonzero⟩ := replacing.decided
  obtain ⟨r, decided, named, granted, valid⟩ := Decided.of_decide sizes fresh decided
    replacing.fetched (replacing.short sealed)
  obtain rfl := replacing.planned
  have small := sizes.manifest_le encoded
  have first := Node.inspect_eq_ok.mp replacing.first
  have second := Node.inspect_eq_ok.mp replacing.second
  obtain ⟨view, current⟩ := restored.current
  have shared : ∃ view, survivor.store.current host.schema survivor.identity true =
      .ok (m.checkpoint, view) := by
    obtain ⟨_, _, current', digest⟩ := first.current
    obtain ⟨own, view', current'', digest'⟩ := second.current
    obtain ⟨rfl, rfl⟩ := Prod.mk.inj (ok_unique current current')
    have same := replacing.collisionFree _ _ _ _ current current'' (digest.trans digest'.symm)
    exact ⟨view', same ▸ current''⟩
  refine ⟨m.checkpoint, r, decided, Fin.forall_fin_two.mpr ⟨?_, ?_⟩⟩
  · exact {
      role := restored.role
      steady := .inl restored.plain
      inactive := restored.inactive
      incomplete := restored.incomplete
      sealed := rfl
      delivered := rfl
      inspected := by
        rw [show (d.request.prepared 0).member = _ from congrArg Prepared.member first.found]
        exact Node.inspect_recording replacing.first sealed.short _
      current := ⟨view, current⟩
      based := fun _ => restored.base
      anchored := Node.checkAnchor_plain (n := { candidate.recording _ _ with role := recoveredRole 0 })
        (a := d.record m.checkpoint 0) restored.plain current fun _ => restored.base
      unlost := restored.unlost
      valid := valid
      token := named ▸ nonzero
      grant := granted
      fits := sizes.active_le sealed.short small 0 }
  · obtain ⟨role, identity, store, segments, rest⟩ := sealed.kept
    obtain ⟨view', current'⟩ := shared
    have own : source.store.current host.schema source.identity true = .ok (m.checkpoint, view') := by
      rw [← store, ← identity]
      exact current'
    have role' : recoveredRole 1 = source.role := by
      rw [sealed.role]
      rfl
    have anchor : source.checkAnchor E host trust (d.record m.checkpoint 1) 1 = .ok () :=
      (Node.checkAnchor_survivor own).mpr anchored
    exact {
      role := role.trans sealed.role
      steady := .inr rfl
      inactive := sealed.inactive
      incomplete := incomplete
      sealed := rfl
      delivered := rfl
      inspected := by
        rw [show (d.request.prepared 1).member = _ from congrArg Prepared.member second.found]
        exact Node.inspect_recording replacing.second sealed.short _
      current := ⟨view', current'⟩
      based := fun zero => by cases zero
      anchored := by
        refine Eq.trans (Node.checkAnchor_congr ?_ ?_ ?_ ?_ _ _) anchor
        exacts [role', identity, store, segments]
      unlost := rest ▸ sealed.unlost
      valid := valid
      token := named ▸ nonzero
      grant := granted
      fits := sizes.active_le sealed.short small 1 }

omit replacing in
theorem Node.Sealed.anchored {s : Node X C V}
    (activated : (survivor.recording plan
      (some (Node.deliveryOf d (d.request.prepared 1)))).activateMember E host trust d 1 = .ok s) :
    source.Anchored E host trust := by
  obtain ⟨role, identity, store, segments, rest⟩ := sealed.kept
  obtain ⟨checkpoint, view, current, saved, validated⟩ := Node.activateMember_eq_ok activated
  obtain rfl : s = { survivor.recording plan (some (Node.deliveryOf d (d.request.prepared 1))) with
      active := some (Node.activeOf d checkpoint (d.request.prepared 1).member)
      role := recoveredRole 1 } := by
    have inactive : (survivor.recording plan (some (Node.deliveryOf d (d.request.prepared 1)))).active =
        none := sealed.inactive
    simp only [Node.saveActive, inactive, run_ok] at saved
    obtain ⟨_, rfl⟩ := saved
    rfl
  simp only [Node.validateActiveAs, bind_eq_ok] at validated
  obtain ⟨_, _, _, _, index, _, _, _, _, _, _, place, _, anchor, _⟩ := validated
  have one : index = 1 := by
    have same := (Replication.ensure_eq_ok.mp place).2.2.1
    rcases Recovery.participant_cases index with rfl | rfl
    · cases same
    · rfl
  rw [one] at anchor
  have own : source.store.current host.schema source.identity true = .ok (checkpoint, view) := by
    rw [← store, ← identity]
    exact current
  have moved : source.checkAnchor E host trust
      (Node.activeOf d checkpoint (d.request.prepared 1).member) 1 = .ok () := by
    refine Eq.trans (Eq.symm (Node.checkAnchor_congr ?_ ?_ ?_ ?_ _ _)) anchor
    · rw [sealed.role]
      rfl
    · exact identity
    · exact store
    · exact segments
  exact (Node.checkAnchor_survivor own).mp moved

omit sealed replacing in
/-- Sealing a recovery source does not strand it: what has to follow the seal succeeds
exactly if the source has no certificates, or certificates whose lineage starts at its
checkpoint. -/
theorem sealed_source_recovers (sizes : Sizes E)
    (reachable : source.Reachable E host trust)
    (idle : source.active = none → source.delivery = none)
    (called : source.sealRecoverySource E host trust plan = .ok survivor)
    (replacing : Replacing E host trust scope plan candidate survivor d journal)
    (permissive : policy.Permissive scope) (nonzero : id ≠ zeroId) :
    Recovers E host trust scope d policy id candidate survivor journal ↔
      source.Anchored E host trust := by
  have sealed := Node.sealRecoverySource_eq_ok called
  have cleared : survivor.delivery = none ∧ survivor.completion = none := by
    cases present : source.active with
    | some a => exact sealed.cleared (by simp [present])
    | none =>
      obtain ⟨delivery, completion⟩ := sealed.untouched present
      exact ⟨delivery.trans (idle present), completion.trans (reachable.orderly present)⟩
  obtain ⟨first, second⟩ := replacing.recorded sealed cleared.1
  constructor
  · rintro ⟨c, s, _, _, recorded, recorded', value, _⟩
    obtain rfl := ok_unique first recorded
    obtain rfl := ok_unique second recorded'
    obtain ⟨d', n, fetched, accepted⟩ := Pair.activatePair_returned value
    obtain rfl : d' = d := replacing.fetch_eq sealed sizes fetched
    exact sealed.anchored accepted
  · intro anchored
    obtain ⟨checkpoint, r, begun⟩ := replacing.begun sealed sizes cleared.2 anchored
    have activation : Triple (· = false) (fun _ => False) _ _ _ (fun _ _ => False) :=
      begun.activatePair_triple permissive (show Stage.recorded.completion = none from rfl)
        fun stopped => by cases stopped
    have completion : Triple (· = false) (fun _ => False) _ _ _ (fun _ _ => False) :=
      begun.completePair_triple permissive
        (show Stage.bothActive.Proper by simp [Stage.Proper, Stage.completion]) (by decide) nonzero
        (by simp [Stage.completion]) fun stopped => by cases stopped
    obtain ⟨_, value, final⟩ := activation.returns (fun _ hs => hs) (fun _ _ hs => hs) (fun _ => rfl) 0
      begun.start_eq
    obtain ⟨_, value', final'⟩ := completion.returns (fun _ hs => hs) (fun _ _ hs => hs)
      (fun _ => rfl) 0 rfl
    refine ⟨_, _, _, _, first, second, value, final, value', final', ?_⟩
    exact (begun.installed 1).recoveryAdmission nonzero

end Outcome

namespace Sample

open Recovery.Sample (mark trusted)
open Maintenance.Sample

/-- The plan that follows the first replacement. -/
def nextPlan : Plan :=
  ⟨mark 2, { baseline with revision := 1, oldPrimary := mark 3 }, 2, mark 4⟩

def nextRequest : Request :=
  ⟨mark 2, nextPlan, fun i => if i = 0 then ⟨mark 4, mark 4, mark 1⟩ else survivor⟩

def nextScope : Scope := { scope with baseline := nextPlan.baseline }

def nextContext : Context := { context with reservation := some ⟨nextPlan, mark 1, mark 1⟩ }

/-- A payload of one letter carries the first grant, a longer one the second. -/
def grants : BridgeEnv fun α => α where
  toEnv := Maintenance.Sample.env
  grant payload := some ⟨1, "issuer", "audience", "replace_primary", "install", "region", mark 1, 0,
    0, 10, if payload.length = 1 then plan else nextPlan, mark 1⟩
  identityText value := if value = identity then "scope" else ""
  identityOf text := if text = "scope" then some identity else none

def nextPolicy : Policy := { policy with context := fun _ _ => .ok nextContext }

def nextDecision : CommittedDecision := ⟨nextRequest, mark 6, mark 1⟩

def nextJournal : File fun α => α :=
  ((File.decide grants.toGrantEnv nextScope nextRequest "t.pp.z" nextPolicy).run
    ⟨2, nextScope, none⟩).2

/-- A verified survivor before its first replacement. -/
def verified : Node Unit Unit Unit :=
  { emptyNode none (mark 2) with store := ⟨(), [], [], none, some (stateAt 0), mark 2, zeroId⟩ }

def sealedSource : Node Unit Unit Unit :=
  { verified with sealed := some plan, checkpointVersion := 2 }

/-- The survivor after its first replacement. -/
def replaced : Node Unit Unit Unit :=
  (delivered verified 1).holding (decision.record (stateAt 0) 1) 1 (.completed (mark 7))

/-- The replaced pair has applied one write and may have compacted it under a certificate. -/
def written : Bool → Node Unit Unit Unit
  | false => { replaced with
    store := ⟨(), [⟨⟨identity, "write", []⟩, 1, zeros, zeros, [], zeros, .applied⟩],
      [⟨1, zeros, 1, ⟨"write", 1⟩⟩], none, some (stateAt 1), mark 2, zeroId⟩ }
  | true => { replaced with
    runtime := 3
    store := ⟨(), [], [⟨1, zeros, 1, ⟨"write", 1⟩⟩], some (stateAt 1), some (stateAt 1), mark 2, zeroId⟩
    segments := ⟨3, some none, some [(1, Maintenance.Sample.plan 1)], some [(1, certificate 1)],
      some (1, mark 1, mark 5, mark 5)⟩ }

theorem sealed_first : verified.sealRecoverySource grants typedHost (some trusted) plan =
    .ok sealedSource := by
  decide +kernel

theorem written_reachable (compacted : Bool) :
    (written compacted).Reachable grants typedHost (some trusted) := by
  refine ⟨verified, rfl, rfl, rfl, rfl, rfl, ?_⟩
  have recorded : sealedSource.recordRecoveryDecision grants typedHost (some trusted) decision
      (mark 2) = .ok (delivered verified 1) := by
    decide +kernel
  have activated : (delivered verified 1).activateMember grants typedHost (some trusted) decision 1 =
      .ok ((delivered verified 1).holding (decision.record (stateAt 0) 1) 1 .active) := by
    decide +kernel
  have completed : ((delivered verified 1).holding (decision.record (stateAt 0) 1) 1
      .active).completeMember grants typedHost (some trusted) request (mark 7) = .ok replaced := by
    decide +kernel
  refine .head (.seal_ plan sealed_first) (.head (.record decision recorded) (.head
    (.activate decision activated) (.head (.complete request (mark 7) completed) (.single ?_))))
  cases compacted <;> exact .work ⟨rfl, rfl⟩ ⟨rfl, rfl, rfl, rfl, rfl⟩

theorem grants_sizes : Sizes grants where
  active _ := show 1 ≤ 1 + 1 + 2048 by decide
  manifest _ := le_refl 1
  record _ _ _ _ := (Nat.le_add_right 1 _).trans (Nat.le_add_right _ _)

/-- The survivor after the next seal: its completed recovery is archived. -/
def resealed (compacted : Bool) : Node Unit Unit Unit :=
  { written compacted with
    runtime := (written compacted).runtime + 1
    sealed := some nextPlan
    delivery := none
    active := none
    completion := none
    cycles := some [(1, ⟨none, decision.record (stateAt 0) 1,
      Node.deliveryOf decision survivor,
      Node.completionOf (decision.record (stateAt 0) 1) request (mark 7), nextPlan⟩, mark 1)] }

def nextCandidate : Node Unit Unit Unit :=
  { emptyNode none (mark 4) with
    store := ⟨(), [], [⟨1, zeros, 1, ⟨"write", 1⟩⟩], some (stateAt 1), none, mark 4, zeroId⟩ }

theorem sealed_next (compacted : Bool) :
    (written compacted).sealRecoverySource grants typedHost (some trusted) nextPlan =
      .ok (resealed compacted) := by
  cases compacted <;> decide +kernel

theorem resealed_replacing (compacted : Bool) :
    Replacing grants typedHost (some trusted) nextScope nextPlan nextCandidate (resealed compacted)
      nextDecision nextJournal where
  planned := rfl
  restored := ⟨manifest 1, rfl, rfl, rfl, rfl, rfl, rfl, rfl, ⟨manifest 1, by decide +kernel⟩, rfl,
    (), by decide +kernel⟩
  first := by decide +kernel
  second := by cases compacted <;> exact Node.sealRecoverySource_inspect (sealed_next _)
  decided := ⟨⟨2, nextScope, none⟩, "t.pp.z", nextPolicy, rfl, rfl, by decide⟩
  fetched := ⟨nextPolicy, rfl⟩
  collisionFree a b va vb current current' _ := by
    have own : nextCandidate.store.current schema identity true = .ok (stateAt 1, ()) := by
      decide +kernel
    have other : (resealed compacted).store.current schema (resealed compacted).identity true =
        .ok (stateAt 1, ()) := by
      cases compacted <;> decide +kernel
    obtain ⟨rfl, _⟩ := Prod.mk.inj (ok_unique own current)
    obtain ⟨rfl, _⟩ := Prod.mk.inj (ok_unique other current')
    rfl

/-- A survivor without certificates is sealed for its second replacement, which succeeds. -/
theorem sealed_source_recovers_written :
    (written false).sealRecoverySource grants typedHost (some trusted) nextPlan =
        .ok (resealed false) ∧
      Recovers grants typedHost (some trusted) nextScope nextDecision nextPolicy (mark 7)
        nextCandidate (resealed false) nextJournal :=
  ⟨sealed_next false, (sealed_source_recovers grants_sizes (written_reachable false) nofun
    (sealed_next false) (resealed_replacing false) ⟨fun _ => rfl, fun _ _ => rfl⟩
    (Recovery.Sample.mark_ne_zero (by decide) (by decide))).mpr (.inl rfl)⟩

/-- A replaced and certified survivor accepts the next seal and archives its recovery, and is
then refused at its activation. -/
theorem certified_source_stranded :
    (written true).Reachable grants typedHost (some trusted) ∧
      (written true).sealRecoverySource grants typedHost (some trusted) nextPlan =
        .ok (resealed true) ∧
      Replacing grants typedHost (some trusted) nextScope nextPlan nextCandidate (resealed true)
        nextDecision nextJournal ∧
      nextPolicy.Permissive nextScope ∧
      ∃ c s, nextCandidate.recordRecoveryDecision grants typedHost (some trusted) nextDecision
          nextPlan.candidate = .ok c ∧
        (resealed true).recordRecoveryDecision grants typedHost (some trusted) nextDecision
          nextPlan.baseline.survivor = .ok s ∧
        (Pair.activatePair grants typedHost (some trusted) nextScope nextRequest nextPolicy
          (fun _ => false) 0 (Pair.of c s nextJournal)).value? =
            some (.error (.message "active certified lineage mismatch")) := by
  obtain ⟨first, second⟩ :=
    (resealed_replacing true).recorded (Node.sealRecoverySource_eq_ok (sealed_next true)) rfl
  refine ⟨written_reachable true, sealed_next true, resealed_replacing true,
    ⟨fun _ => rfl, fun _ _ => rfl⟩, _, _, first, second, ?_⟩
  decide +kernel

end Sample

end TerrapiVault.Replacement
