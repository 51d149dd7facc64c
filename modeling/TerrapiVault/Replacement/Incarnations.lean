import Mathlib.Data.List.Chain
import TerrapiVault.Replacement.Sealing

/-! The recoveries a node goes through. Each new plan is compared with the completed one and
with the archived ones, so that no member and no recovery id ever returns. -/
namespace TerrapiVault.Replacement

open Replication (Result)
open Recovery (Id Trust)
open Maintenance

/-- The members and ids of a sequence of plans are all different. -/
structure Fresh (plans : List Plan) : Prop where
  members : ∀ first ∈ plans.head?, (first.baseline.oldPrimary :: first.baseline.survivor ::
    plans.map Plan.candidate).Nodup
  ids : (plans.map Plan.recoveryId).Nodup

theorem Fresh.nil : Fresh [] := ⟨nofun, List.nodup_nil⟩

theorem Fresh.first {plan : Plan} (valid : plan.baseline.Valid) (grown : plan.Extends plan.baseline) :
    Fresh [plan] := by
  obtain ⟨_, _, _, _, _, other, apart⟩ := grown
  refine ⟨fun first there => ?_, List.nodup_singleton _⟩
  obtain rfl := Option.some.inj there
  simp [valid.2.2, other.symm, apart.symm]

theorem Fresh.snoc {plans : List Plan} (fresh : Fresh plans) {plan : Plan}
    (members : ∀ first ∈ plans.head?, plan.candidate ≠ first.baseline.oldPrimary ∧
      plan.candidate ≠ first.baseline.survivor)
    (candidates : ∀ p ∈ plans, plan.candidate ≠ p.candidate)
    (ids : ∀ p ∈ plans, plan.recoveryId ≠ p.recoveryId) (some' : plans ≠ []) :
    Fresh (plans ++ [plan]) := by
  refine ⟨fun first there => ?_, ?_⟩
  · have there : first ∈ plans.head? := by
      rwa [List.head?_append_of_ne_nil _ some'] at there
    have before := fresh.members first there
    obtain ⟨old, survivor⟩ := members first there
    rw [List.map_append, ← List.cons_append, ← List.cons_append, List.map_singleton,
      ← List.concat_eq_append]
    refine List.Nodup.concat ?_ before
    simp only [List.mem_cons, List.mem_map, not_or, not_exists, not_and]
    exact ⟨old, survivor, fun p inside same => candidates p inside same.symm⟩
  · rw [List.map_append, List.map_singleton, ← List.concat_eq_append]
    refine List.Nodup.concat ?_ fresh.ids
    simp only [List.mem_map, not_exists, not_and]
    exact fun p inside same => ids p inside same.symm

section Definitions

/-- The format of the recovery history that goes with a runtime format. -/
def historyBase (runtime : ℕ) : ℕ := if runtime = 3 ∨ runtime = 4 then runtime - 2 else runtime

namespace Node

variable {X C V : Type} (n : Node X C V)

def rows : List (ℕ × Retired × Id) := n.cycles.getD []

/-- The active records of the recoveries in the history. -/
def archived : List Active := n.rows.map fun row => row.2.1.active

/-- The plans of the history and the sealed one. -/
def plans : List Plan := n.archived.map (·.request.plan) ++ n.sealed.toList

/-- A call that fails leaves the node as it was. -/
def attempt (call : Node X C V → Result (Node X C V)) : Node X C V :=
  match call n with
  | .ok n' => n'
  | .error _ => n

end Node

variable {T : Type → Type} (E : BridgeEnv T) {X C V : Type} (host : Host X C V)

/-- A node with the history of the recoveries it completed. -/
structure Cycling (X C V : Type) where
  node : Node X C V
  replaced : List Active

/-- A successful first completion ends a replacement. -/
def Cycling.complete (w : Cycling X C V) (trust : Option Trust) (request : Request) (id : Id) :
    Cycling X C V :=
  match w.node.completeMember E host trust request id with
  | .ok n => ⟨n, if w.node.completion.isNone then w.replaced ++ n.active.toList else w.replaced⟩
  | .error _ => w

/-- Any call in any order, whether it succeeds or not. Writes, compaction and certified
maintenance leave the recovery tables alone and keep the format of the history. -/
inductive Cycling.Step : Cycling X C V → Cycling X C V → Prop
  | work {w : Cycling X C V} {n : Node X C V} (tables : n.sealed = w.node.sealed ∧
      n.delivery = w.node.delivery ∧ n.active = w.node.active ∧ n.completion = w.node.completion ∧
      n.cycles = w.node.cycles) (format : historyBase n.runtime = historyBase w.node.runtime) :
      Step w ⟨n, w.replaced⟩
  | seal_ {w : Cycling X C V} (trust : Option Trust) (plan : Plan) :
      Step w ⟨w.node.attempt (·.sealRecoverySource E host trust plan), w.replaced⟩
  | record {w : Cycling X C V} (trust : Option Trust) (d : CommittedDecision) (member : Id) :
      Step w ⟨w.node.attempt (·.recordRecoveryDecision E host trust d member), w.replaced⟩
  | activate {w : Cycling X C V} (trust : Option Trust) (d : CommittedDecision) (i : Fin 2) :
      Step w ⟨w.node.attempt (·.activateMember E host trust d i), w.replaced⟩
  | complete {w : Cycling X C V} (trust : Option Trust) (request : Request) (id : Id) :
      Step w (w.complete E host trust request id)

end Definitions

section Calls

variable {T : Type → Type} {E : BridgeEnv T} {X C V : Type} {host : Host X C V}
  {trust : Option Trust} {n n' : Node X C V}

/-- The next plan continues the completed recovery. -/
structure Continues (E : BridgeEnv T) (a : Active) (next : Plan) : Prop where
  valid : next.baseline.Valid
  grown : next.Extends next.baseline
  member : a.member = a.request.plan.baseline.survivor
  revision : next.baseline.revision = a.request.plan.revision
  digest : next.baseline.digest = a.membership E
  oldPrimary : next.baseline.oldPrimary = a.request.plan.candidate
  survivor : next.baseline.survivor = a.member
  candidate : next.candidate ≠ a.request.plan.baseline.oldPrimary
  recoveryId : next.recoveryId ≠ a.request.plan.recoveryId

theorem successor_eq_ok {a : Active} {next : Plan} {u : Unit} (ok : successor E a next = .ok u) :
    Continues E a next := by
  simp only [successor, unit_bind_eq_ok, authorizes_eq_ok, Replication.ensure_eq_ok] at ok
  obtain ⟨⟨valid, grown⟩, member, _, revision, digest, oldPrimary, survivor, candidate, recoveryId⟩ := ok
  exact ⟨valid, grown, member, revision, digest, oldPrimary, survivor, candidate, recoveryId⟩

theorem Continues.next_revision {a : Active} {next : Plan} (continues : Continues E a next) :
    next.revision = a.request.plan.revision + 1 := by
  rw [← continues.grown.2.2.1, continues.revision]

/-- The history of the node is read as its format says. -/
def Node.History (E : BridgeEnv T) (n : Node X C V) : Prop :=
  n.verifyHistory E (historyBase n.runtime) = .ok ()

theorem Node.History.congr (history : n.History E) (sealed : n'.sealed = n.sealed)
    (cycles : n'.cycles = n.cycles) (format : historyBase n'.runtime = historyBase n.runtime) :
    n'.History E := by
  unfold Node.History at history ⊢
  simp only [verifyHistory, visitHistory, readSeal, format, sealed, cycles] at history ⊢
  exact history

theorem Node.verifyOwner_history (owner : n.verifyOwner E host trust = .ok ()) : n.History E := by
  simp only [verifyOwner, run_ok] at owner
  obtain ⟨_, format, formatted, history, _⟩ := owner
  have same : format = historyBase n.runtime := by
    unfold historyFormat at formatted
    split_ifs at formatted with plain maintained old
    · simp only [run_ok] at formatted
      obtain ⟨_, _, rfl⟩ := formatted
      exact (if_neg (by omega)).symm
    · simp only [run_ok] at formatted
      obtain ⟨_, _, _, rfl⟩ := formatted
      exact (if_pos maintained).symm
    · simp only [run_ok] at formatted
      obtain ⟨_, _, rfl⟩ := formatted
      exact (if_pos maintained).symm
  rw [same] at history
  exact history

theorem visit_all {visit : Retired → Result Unit} {rows : List (ℕ × Retired × Id)}
    {w w' : CycleWalk} (walked : rows.foldlM (CycleWalk.visit E visit) w = .ok w') :
    ∀ row ∈ rows, visit row.2.1 = .ok () := by
  induction rows generalizing w with
  | nil => nofun
  | cons row rows ih =>
    rw [List.foldlM_cons, bind_eq_ok] at walked
    obtain ⟨next, visited, rest⟩ := walked
    simp only [CycleWalk.visit, run_ok] at visited
    obtain ⟨_, _, _, _, _, visited, _⟩ := visited
    exact List.forall_mem_cons.mpr ⟨visited, ih rest⟩

variable {plan : Plan}

theorem Node.retiredParent_eq_ok {parent : Option Id}
    (found : n.retiredParent E plan = .ok parent) : ∀ a ∈ n.archived,
      plan.candidate ≠ a.request.plan.baseline.oldPrimary ∧
      plan.candidate ≠ a.request.plan.candidate ∧ plan.recoveryId ≠ a.request.plan.recoveryId := by
  intro a inside
  obtain ⟨row, there, rfl⟩ := List.mem_map.mp inside
  unfold retiredParent at found
  cases present : n.cycles with
  | none =>
    rw [rows, present] at there
    cases there
  | some stored =>
    rw [present] at found
    simp only [Option.isSome_some, if_true, visitHistory, run_ok,
      Maintenance.queried_eq_ok] at found
    obtain ⟨_, ⟨_, kept, _, walked, _⟩, _⟩ := found
    obtain rfl := Option.mem_unique present kept
    rw [rows, present] at there
    have apart := Replication.ensure_eq_ok.mp (visit_all walked row there)
    simp only [List.mem_cons, List.not_mem_nil, or_false, not_or] at apart
    exact ⟨apart.1.1, apart.1.2, apart.2.symm⟩

/-- What a call can do to the recovery tables. -/
inductive Node.Turns (E : BridgeEnv T) (n n' : Node X C V) : Prop
  | kept (sealed : n'.sealed = n.sealed) (active : n'.active = n.active)
      (completion : n'.completion = n.completion) (cycles : n'.cycles = n.cycles)
      (history : n'.History E)
  | bound (plan : Plan) (unsealed : n.sealed = none) (sealed : n'.sealed = some plan)
      (valid : plan.baseline.Valid) (grown : plan.Extends plan.baseline)
      (active : n'.active = n.active) (completion : n'.completion = n.completion)
      (cycles : n'.cycles = n.cycles) (history : n'.History E)
  | activated (a : Active) (inactive : n.active = none) (active : n'.active = some a)
      (planned : n.sealed = some a.request.plan) (sealed : n'.sealed = n.sealed)
      (completion : n'.completion = n.completion) (cycles : n'.cycles = n.cycles)
      (history : n'.History E)
  | advanced (a : Active) (plan : Plan) (record : Retired) (hash : Id) (active : n.active = some a)
      (own : record.active = a) (sealed : n'.sealed = some plan) (inactive : n'.active = none)
      (incomplete : n'.completion = none) (completed : n.completion.isSome = true)
      (continues : Continues E a plan)
      (apart : ∀ b ∈ n.archived, plan.candidate ≠ b.request.plan.baseline.oldPrimary ∧
        plan.candidate ≠ b.request.plan.candidate ∧ plan.recoveryId ≠ b.request.plan.recoveryId)
      (rows : ∃ rows, insertSequence n.rows (a.request.plan.revision, record, hash) = .ok rows ∧
        n'.cycles = some rows) (history : n'.History E)

theorem Node.Turns.recording (valid : plan.baseline.Valid) (grown : plan.Extends plan.baseline)
    (agreed : ∀ old ∈ n.sealed, old = plan) (owner : n.verifyOwner E host trust = .ok ())
    (receipt : Option Delivery) : n.Turns E (n.recording plan receipt) := by
  have history := verifyOwner_history (verifyOwner_recording owner agreed receipt)
  cases present : n.sealed with
  | none => exact .bound plan present rfl valid grown rfl rfl rfl history
  | some old =>
    obtain rfl := agreed old present
    exact .kept present.symm rfl rfl rfl history

theorem Node.advanceCycle_turns {a : Active} (active : n.active = some a)
    (advanced : n.advanceCycle E host trust a plan = .ok n') :
    n'.sealed = some plan ∧ n.Turns E n' := by
  simp only [advanceCycle, run_ok, Maintenance.queried_eq_ok] at advanced
  obtain ⟨_, continued, parent, apart, _, _, _, completed, _, _, rows, inserted, _, _, inspected,
    rfl⟩ := advanced
  exact ⟨rfl, .advanced a plan _ _ active rfl rfl rfl rfl (by rw [completed]; rfl)
    (successor_eq_ok continued) (retiredParent_eq_ok apart) ⟨rows, inserted, rfl⟩
    (verifyOwner_history (inspect_eq_ok.mp inspected).owner)⟩

theorem Node.saveSeal_again (sealed : n.sealed = some plan) (saved : n.saveSeal E plan = .ok n') :
    n' = n := by
  simp only [saveSeal, run_ok, readSeal_eq_ok] at saved
  obtain ⟨_, _, ⟨rfl, _⟩, saved⟩ := saved
  simp only [sealed, run_ok] at saved
  obtain ⟨_, rfl⟩ := saved
  rfl

theorem Node.sealRecoverySource_turns (called : n.sealRecoverySource E host trust plan = .ok n') :
    n.Turns E n' := by
  have short := (sealRecoverySource_eq_ok called).short
  simp only [sealRecoverySource, retireActive, run_ok, readActive_eq_ok] at called
  obtain ⟨_, _, _, ready, ⟨active, ⟨rfl, _⟩, retired⟩, found, inspected, saved⟩ := called
  cases present : n.active with
  | none =>
    rw [present] at retired
    obtain rfl : n = ready := Except.ok.inj retired
    obtain rfl := ok_unique saved (saveSeal_inspected inspected short)
    have h := inspect_eq_ok.mp inspected
    exact .recording h.baseline h.extending (fun old stored => (h.sealed old stored).1) h.owner _
  | some a =>
    rw [present] at retired
    obtain ⟨sealed, turned⟩ := advanceCycle_turns present retired
    rwa [saveSeal_again sealed saved]

theorem Node.recordRecoveryDecision_turns {d : CommittedDecision} {member : Id}
    (called : n.recordRecoveryDecision E host trust d member = .ok n') : n.Turns E n' := by
  simp only [recordRecoveryDecision, run_ok] at called
  obtain ⟨_, actual, inspected, _, middle, saved, delivered⟩ := called
  have short := (saveSeal_frame saved).2.2.2.2
  have h := inspect_eq_ok.mp inspected
  obtain rfl := ok_unique saved (saveSeal_inspected inspected short)
  have recorded : ∃ receipt, n' = n.recording d.request.plan receipt := by
    unfold saveDelivery at delivered
    split at delivered
    · simp only [run_ok] at delivered
      obtain ⟨_, rfl⟩ := delivered
      exact ⟨_, rfl⟩
    · obtain rfl := Except.ok.inj delivered
      exact ⟨_, rfl⟩
  obtain ⟨receipt, rfl⟩ := recorded
  exact .recording h.baseline h.extending (fun old stored => (h.sealed old stored).1) h.owner _

theorem Node.activateMember_turns {d : CommittedDecision} {i : Fin 2}
    (called : n.activateMember E host trust d i = .ok n') : n.Turns E n' := by
  obtain ⟨_, _, _, saved, validated⟩ := activateMember_eq_ok called
  simp only [validateActiveAs, verifyOwnerAs, checked_ok, readSeal_eq_ok] at validated
  obtain ⟨⟨_, owner⟩, _, _, _, _, _, ⟨sealed, _⟩, ⟨planned, _⟩, _⟩ := validated
  have history := verifyOwner_history owner
  unfold saveActive at saved
  split at saved
  · simp only [run_ok] at saved
    obtain ⟨_, rfl⟩ := saved
    exact .kept rfl rfl rfl rfl history
  · rename_i inactive
    simp only [run_ok] at saved
    obtain ⟨_, rfl⟩ := saved
    exact .activated _ inactive rfl (sealed.trans planned) rfl rfl rfl history

end Calls

section Runs

variable {T : Type → Type} {E : BridgeEnv T} {X C V : Type} {host : Host X C V}

/-- A new file: no recovery tables, and the first format of the history. -/
structure Node.Created (n : Node X C V) : Prop where
  sealed : n.sealed = none
  delivery : n.delivery = none
  active : n.active = none
  completion : n.completion = none
  cycles : n.cycles = none
  format : historyBase n.runtime = 1

/-- What holds of a node and of the recoveries it completed. -/
structure Cycling.Sound (E : BridgeEnv T) (w : Cycling X C V) : Prop where
  active : ∀ a ∈ w.node.active, w.node.sealed = some a.request.plan
  completion : w.node.completion.isSome = true → w.node.active.isSome = true
  replaced : w.replaced = w.node.archived ++
    if w.node.completion.isSome then w.node.active.toList else []
  rows : ∀ row ∈ w.node.rows, row.1 = row.2.1.active.request.plan.revision
  chain : w.node.archived.IsChain fun a b => Continues E a b.request.plan
  head : ∀ a ∈ w.node.archived.getLast?, ∃ plan, w.node.sealed = some plan ∧ Continues E a plan
  fresh : Fresh w.node.plans
  history : w.node.History E

variable {n : Node X C V} {a : Active}

namespace Cycling.Sound

variable {w : Cycling X C V}

section

variable (sound : Sound E w)
include sound

/-- The plan and the cycles stay as they are. -/
theorem within {replaced : List Active} (sealed : n.sealed = w.node.sealed)
    (cycles : n.cycles = w.node.cycles) (history : n.History E)
    (active : ∀ a ∈ n.active, w.node.sealed = some a.request.plan)
    (completion : n.completion.isSome = true → n.active.isSome = true)
    (same : replaced = w.node.archived ++ if n.completion.isSome then n.active.toList else []) :
    Sound E ⟨n, replaced⟩ := by
  have rows : n.rows = w.node.rows := congrArg (Option.getD · []) cycles
  have archived : n.archived = w.node.archived := congrArg (List.map _) rows
  refine ⟨?_, completion, ?_, ?_, ?_, ?_, ?_, history⟩
  · rw [sealed]
    exact active
  · rw [archived]
    exact same
  · rw [rows]
    exact sound.rows
  · rw [archived]
    exact sound.chain
  · rw [archived, sealed]
    exact sound.head
  · rw [Node.plans, archived, sealed]
    exact sound.fresh

theorem kept (sealed : n.sealed = w.node.sealed) (active : n.active = w.node.active)
    (completion : n.completion = w.node.completion) (cycles : n.cycles = w.node.cycles)
    (history : n.History E) : Sound E ⟨n, w.replaced⟩ := by
  refine sound.within sealed cycles history ?_ ?_ ?_ <;> rw [active]
  · exact sound.active
  · rw [completion]
    exact sound.completion
  · rw [completion]
    exact sound.replaced

theorem bound {plan : Plan} (unsealed : w.node.sealed = none) (sealed : n.sealed = some plan)
    (valid : plan.baseline.Valid) (grown : plan.Extends plan.baseline)
    (active : n.active = w.node.active) (completion : n.completion = w.node.completion)
    (cycles : n.cycles = w.node.cycles) (history : n.History E) : Sound E ⟨n, w.replaced⟩ := by
  have rows : n.rows = w.node.rows := congrArg (Option.getD · []) cycles
  have archived : n.archived = w.node.archived := congrArg (List.map _) rows
  have inactive : w.node.active = none := by
    cases present : w.node.active with
    | none => rfl
    | some a =>
      have held := sound.active a present
      rw [unsealed] at held
      cases held
  have empty : w.node.archived = [] := by
    refine List.getLast?_eq_none_iff.mp ?_
    cases last : w.node.archived.getLast? with
    | none => rfl
    | some a =>
      obtain ⟨plan, held, _⟩ := sound.head a last
      rw [unsealed] at held
      cases held
  refine ⟨?_, ?_, ?_, ?_, ?_, ?_, ?_, history⟩
  · rw [active, inactive]
    nofun
  · rw [active, completion]
    exact sound.completion
  · rw [archived, active, completion]
    exact sound.replaced
  · rw [rows]
    exact sound.rows
  · rw [archived]
    exact sound.chain
  · rw [archived, empty]
    nofun
  · rw [Node.plans, archived, empty, sealed]
    exact .first valid grown

theorem activated (inactive : w.node.active = none) (active : n.active = some a)
    (planned : w.node.sealed = some a.request.plan) (sealed : n.sealed = w.node.sealed)
    (completion : n.completion = w.node.completion) (cycles : n.cycles = w.node.cycles)
    (history : n.History E) : Sound E ⟨n, w.replaced⟩ := by
  have incomplete : w.node.completion.isSome = false := by
    refine Bool.eq_false_of_not_eq_true fun done => ?_
    have held := sound.completion done
    rw [inactive] at held
    cases held
  refine sound.within sealed cycles history ?_ ?_ ?_
  · intro b held
    exact Option.mem_unique active held ▸ planned
  · rw [active]
    exact fun _ => rfl
  · have before := sound.replaced
    rw [incomplete] at before
    rw [completion, incomplete]
    exact before

section

variable (active : w.node.active = some a)
include active

/-- The history goes on with the active recovery. -/
theorem chained : (w.node.archived ++ [a]).IsChain fun a b => Continues E a b.request.plan := by
  refine List.isChain_append.mpr ⟨sound.chain, List.isChain_singleton _, fun last there b first => ?_⟩
  obtain rfl := Option.some.inj first
  obtain ⟨plan, sealed, continues⟩ := sound.head last there
  obtain rfl := Option.mem_unique sealed (sound.active a active)
  exact continues

theorem revisions : ∀ b ∈ w.node.archived, b.request.plan.revision < a.request.plan.revision := by
  have rising : (w.node.archived ++ [a]).IsChain fun a b : Active =>
      a.request.plan.revision < b.request.plan.revision := by
    refine (sound.chained active).imp fun b c continues => ?_
    rw [continues.next_revision]
    exact Nat.lt_succ_self _
  have : Trans (fun a b : Active => a.request.plan.revision < b.request.plan.revision)
      (fun a b : Active => a.request.plan.revision < b.request.plan.revision)
      (fun a b : Active => a.request.plan.revision < b.request.plan.revision) := ⟨Nat.lt_trans⟩
  exact fun b inside => (List.pairwise_append.mp rising.pairwise).2.2 b inside a List.mem_cons_self

theorem survivors :
    ∀ b ∈ w.node.archived, a.request.plan.baseline.survivor = b.request.plan.baseline.survivor := by
  have steady : (w.node.archived ++ [a]).IsChain fun a b : Active =>
      b.request.plan.baseline.survivor = a.request.plan.baseline.survivor :=
    (sound.chained active).imp fun b c continues => continues.survivor.trans continues.member
  have : Trans (fun a b : Active => b.request.plan.baseline.survivor = a.request.plan.baseline.survivor)
      (fun a b : Active => b.request.plan.baseline.survivor = a.request.plan.baseline.survivor)
      (fun a b : Active => b.request.plan.baseline.survivor = a.request.plan.baseline.survivor) :=
    ⟨fun first second => second.trans first⟩
  exact fun b inside => (List.pairwise_append.mp steady.pairwise).2.2 b inside a List.mem_cons_self

theorem plans_active : w.node.plans = (w.node.archived ++ [a]).map (·.request.plan) := by
  rw [Node.plans, sound.active a active, List.map_append]
  rfl

theorem fresh_next {plan : Plan} (continues : Continues E a plan)
    (apart : ∀ b ∈ w.node.archived, plan.candidate ≠ b.request.plan.baseline.oldPrimary ∧
      plan.candidate ≠ b.request.plan.candidate ∧ plan.recoveryId ≠ b.request.plan.recoveryId) :
    Fresh (w.node.plans ++ [plan]) := by
  obtain ⟨_, _, _, _, _, fromPrimary, fromSurvivor⟩ := continues.grown
  rw [continues.oldPrimary] at fromPrimary
  rw [continues.survivor, continues.member] at fromSurvivor
  have same := sound.plans_active active
  have all {P : Plan → Prop} (old : ∀ b ∈ w.node.archived, P b.request.plan)
      (last : P a.request.plan) : ∀ p ∈ w.node.plans, P p := by
    rw [same]
    intro p inside
    obtain ⟨b, there, rfl⟩ := List.mem_map.mp inside
    obtain there | there := List.mem_append.mp there
    · exact old b there
    · rw [List.mem_singleton.mp there]
      exact last
  refine sound.fresh.snoc ?_ (all (fun b inside => (apart b inside).2.1) fromPrimary)
    (all (fun b inside => (apart b inside).2.2) continues.recoveryId) (by simp [same])
  have members := all (P := fun p => plan.candidate ≠ p.baseline.oldPrimary ∧
    plan.candidate ≠ p.baseline.survivor)
    (fun b inside => ⟨(apart b inside).1, by rwa [← sound.survivors active b inside]⟩)
    ⟨continues.candidate, fromSurvivor⟩
  exact fun first there => members first (List.mem_of_mem_head? there)

theorem advanced {plan : Plan} {record : Retired} {hash : Id} (own : record.active = a)
    (sealed : n.sealed = some plan) (inactive : n.active = none)
    (incomplete : n.completion = none) (completed : w.node.completion.isSome = true)
    (continues : Continues E a plan)
    (apart : ∀ b ∈ w.node.archived, plan.candidate ≠ b.request.plan.baseline.oldPrimary ∧
      plan.candidate ≠ b.request.plan.candidate ∧ plan.recoveryId ≠ b.request.plan.recoveryId)
    (rows : ∃ rows, insertSequence w.node.rows (a.request.plan.revision, record, hash) = .ok rows ∧
      n.cycles = some rows) (history : n.History E) : Sound E ⟨n, w.replaced⟩ := by
  have appended : n.rows = w.node.rows ++ [(a.request.plan.revision, record, hash)] := by
    obtain ⟨rows, inserted, cycles⟩ := rows
    have below : ∀ row ∈ w.node.rows, row.1 < a.request.plan.revision := by
      intro row inside
      rw [sound.rows row inside]
      exact sound.revisions active _ (List.mem_map_of_mem inside)
    rw [Node.rows, cycles, Option.getD_some, ← (insertSequence_eq_ok.mp inserted).2.2,
      Table.put_last _ below]
  have archived : n.archived = w.node.archived ++ [a] := by
    rw [Node.archived, appended, List.map_append, Node.archived, List.map_singleton, own]
  have plans : n.plans = w.node.plans ++ [plan] := by
    rw [sound.plans_active active, Node.plans, archived, sealed]
    rfl
  refine ⟨?_, ?_, ?_, ?_, ?_, ?_, ?_, history⟩
  · rw [inactive]
    nofun
  · rw [incomplete]
    nofun
  · rw [archived, incomplete, sound.replaced, completed, active]
    simp
  · rw [appended]
    refine List.forall_mem_append.mpr ⟨sound.rows, ?_⟩
    intro row inside
    obtain rfl := List.mem_singleton.mp inside
    rw [own]
  · rw [archived]
    exact sound.chained active
  · intro b last
    rw [archived, List.getLast?_concat] at last
    obtain rfl := Option.some.inj last
    exact ⟨plan, sealed, continues⟩
  · rw [plans]
    exact sound.fresh_next active continues apart

end

theorem turns (turned : w.node.Turns E n) : Sound E ⟨n, w.replaced⟩ := by
  cases turned with
  | kept sealed active completion cycles history =>
    exact sound.kept sealed active completion cycles history
  | bound plan unsealed sealed valid grown active completion cycles history =>
    exact sound.bound unsealed sealed valid grown active completion cycles history
  | activated a inactive active planned sealed completion cycles history =>
    exact sound.activated inactive active planned sealed completion cycles history
  | advanced a plan record hash active own sealed inactive incomplete completed continues apart rows
      history =>
    exact sound.advanced active own sealed inactive incomplete completed continues apart rows history

theorem attempt {call : Node X C V → Result (Node X C V)}
    (turns : ∀ n, call w.node = .ok n → w.node.Turns E n) :
    Sound E ⟨w.node.attempt call, w.replaced⟩ := by
  cases called : call w.node with
  | ok n =>
    have same : w.node.attempt call = n := by rw [Node.attempt, called]
    rw [same]
    exact sound.turns (turns n called)
  | error e =>
    have same : w.node.attempt call = w.node := by rw [Node.attempt, called]
    rw [same]
    exact sound

theorem complete (trust : Option Trust) (request : Request) (id : Id) :
    Sound E (w.complete E host trust request id) := by
  unfold Cycling.complete
  cases called : w.node.completeMember E host trust request id with
  | error e => exact sound
  | ok n =>
    obtain ⟨live, done, active, sealed, cycles, runtime⟩ := Node.completeMember_eq_ok called
    refine sound.within sealed cycles (sound.history.congr sealed cycles (by rw [runtime])) ?_ ?_ ?_ <;>
      rw [active]
    · exact sound.active
    · exact fun _ => live
    · have before := sound.replaced
      cases present : w.node.completion with
      | none | some _ =>
        rw [present] at before
        rw [done, before]
        simp

theorem step {w' : Cycling X C V} (step : Cycling.Step E host w w') : Sound E w' := by
  cases step with
  | work tables format =>
    obtain ⟨sealed, _, active, completion, cycles⟩ := tables
    exact sound.kept sealed active completion cycles (sound.history.congr sealed cycles format)
  | seal_ trust plan => exact sound.attempt fun _ => Node.sealRecoverySource_turns
  | record trust d member => exact sound.attempt fun _ => Node.recordRecoveryDecision_turns
  | activate trust d i => exact sound.attempt fun _ => Node.activateMember_turns
  | complete trust request id => exact sound.complete trust request id

end

theorem created (created : n.Created) : Sound E ⟨n, []⟩ := by
  obtain ⟨sealed, _, active, completion, cycles, format⟩ := created
  have archived : n.archived = [] := by
    rw [Node.archived, Node.rows, cycles]
    rfl
  refine ⟨?_, ?_, ?_, ?_, ?_, ?_, ?_, ?_⟩
  · rw [active]
    nofun
  · rw [completion]
    nofun
  · rw [archived, completion]
    rfl
  · rw [Node.rows, cycles]
    nofun
  · rw [archived]
    exact .nil
  · rw [archived]
    nofun
  · rw [Node.plans, archived, sealed]
    exact .nil
  · rw [Node.History, Node.verifyHistory, format, if_pos rfl, cycles]
    exact Replication.ensure_eq_ok.mpr rfl

theorem replaced_plans (sound : Sound E w) :
    w.replaced.map (·.request.plan) <+: w.node.plans ∧
      w.replaced.IsChain fun a b => Continues E a b.request.plan := by
  have same := sound.replaced
  split_ifs at same with done
  · obtain ⟨a, active⟩ := Option.isSome_iff_exists.mp (sound.completion done)
    rw [active, Option.toList_some] at same
    rw [same, sound.plans_active active]
    exact ⟨List.prefix_rfl, sound.chained active⟩
  · rw [List.append_nil] at same
    rw [same]
    exact ⟨List.prefix_append _ _, sound.chain⟩

end Cycling.Sound

/-- No incarnation and no recovery id returns, the history is accepted, and a refused seal
changes nothing. -/
structure Cycling.Unrepeated (E : BridgeEnv T) (host : Host X C V) (w : Cycling X C V) : Prop where
  members : ∀ first ∈ w.replaced.head?, (first.request.plan.baseline.oldPrimary ::
    first.request.plan.baseline.survivor :: w.replaced.map (·.request.plan.candidate)).Nodup
  survivor : w.replaced.IsChain fun a b =>
    b.request.plan.baseline.survivor = a.request.plan.baseline.survivor
  ids : (w.replaced.map (·.request.plan.recoveryId)).Nodup
  revisions : w.replaced.IsChain fun a b => b.request.plan.revision = a.request.plan.revision + 1
  baselines : w.replaced.IsChain fun a b => b.request.plan.baseline.digest = a.membership E ∧
    b.request.plan.baseline.oldPrimary = a.request.plan.candidate
  history : w.node.verifyHistory E (historyBase w.node.runtime) = .ok ()
  refused : ∀ trust plan e, w.node.sealRecoverySource E host trust plan = .error e →
    w.node.attempt (·.sealRecoverySource E host trust plan) = w.node

theorem Cycling.Sound.members {w : Cycling X C V} (sound : Sound E w) {first : Active}
    (there : first ∈ w.replaced.head?) : (first.request.plan.baseline.oldPrimary ::
      first.request.plan.baseline.survivor :: w.replaced.map (·.request.plan.candidate)).Nodup := by
  obtain ⟨⟨rest, plans⟩, _⟩ := sound.replaced_plans
  have head : first.request.plan ∈ w.node.plans.head? := by
    obtain ⟨more, split⟩ := List.head?_eq_some_iff.mp there
    rw [← plans, split]
    rfl
  have candidates : w.replaced.map (·.request.plan.candidate) <+: w.node.plans.map Plan.candidate := by
    rw [← plans, List.map_append, List.map_map]
    exact List.prefix_append _ _
  exact (sound.fresh.members _ head).sublist ((candidates.sublist.cons_cons _).cons_cons _)

theorem Cycling.Sound.unrepeated {w : Cycling X C V} (sound : Sound E w) : w.Unrepeated E host := by
  obtain ⟨⟨rest, plans⟩, chain⟩ := sound.replaced_plans
  refine ⟨fun first there => sound.members there, ?_, ?_, ?_, ?_, sound.history, ?_⟩
  · exact chain.imp fun _ _ continues => continues.survivor.trans continues.member
  · have fresh := sound.fresh.ids
    rw [← plans, List.map_append, List.map_map] at fresh
    exact fresh.sublist (List.sublist_append_left _ _)
  · exact chain.imp fun _ _ continues => continues.next_revision
  · exact chain.imp fun _ _ continues => ⟨continues.digest, continues.oldPrimary⟩
  · intro trust plan e refused
    rw [Node.attempt, refused]

/-- Whatever is called on a node, no incarnation and no recovery id returns. -/
theorem incarnations_unrepeated {n : Node X C V} (created : n.Created) {w : Cycling X C V}
    (run : Relation.ReflTransGen (Cycling.Step E host) ⟨n, []⟩ w) : w.Unrepeated E host := by
  have sound : w.Sound E := by
    induction run with
    | refl => exact .created created
    | tail _ step ih => exact ih.step step
  exact sound.unrepeated

end Runs

namespace Sample

open Recovery.Sample (mark trusted)

/-- A whole replacement: seal, decision, activation and completion. -/
def cycle (w : Cycling Unit Unit Unit) (d : CommittedDecision) (id : Id) : Cycling Unit Unit Unit :=
  Cycling.complete grants typedHost
    ⟨((w.node.attempt (·.sealRecoverySource grants typedHost (some trusted) d.request.plan)).attempt
      (·.recordRecoveryDecision grants typedHost (some trusted) d (mark 2))).attempt
      (·.activateMember grants typedHost (some trusted) d 1), w.replaced⟩ (some trusted) d.request id

theorem cycle_runs (w : Cycling Unit Unit Unit) (d : CommittedDecision) (id : Id) :
    Relation.ReflTransGen (Cycling.Step grants typedHost) w (cycle w d id) :=
  .head (.seal_ (some trusted) d.request.plan) (.head (.record (some trusted) d (mark 2))
    (.head (.activate (some trusted) d 1) (.single (.complete (some trusted) d.request id))))

/-- A survivor that went through two replacements. -/
def twice : Cycling Unit Unit Unit :=
  cycle (cycle ⟨verified, []⟩ decision (mark 7)) nextDecision (mark 8)

theorem incarnations_unrepeated_twice :
    twice.replaced.length = 2 ∧ twice.Unrepeated grants typedHost :=
  ⟨by decide +kernel, incarnations_unrepeated ⟨rfl, rfl, rfl, rfl, rfl, rfl⟩
    ((cycle_runs _ decision (mark 7)).trans (cycle_runs _ nextDecision (mark 8)))⟩

end Sample

end TerrapiVault.Replacement
