import TerrapiVault.Replacement.Activation
import TerrapiVault.Replacement.DecisionRuns
import TerrapiVault.Lib.CrashLogic

/-! Activation and completion of a recovered pair. The two files and the decision journal
change one transaction at a time, and the process may stop after any of them. -/
namespace TerrapiVault.Replacement

open Replication (Fault Result ensure)
open Recovery
open Transaction (Tx)
open CrashLogic (Script Triple)

/-- Node 0 is the candidate, node 1 the survivor. -/
structure Pair (T : Type → Type) (X C V : Type) where
  nodes : Fin 2 → Node X C V
  journal : File T

namespace Pair

variable {T : Type → Type} {X C V α : Type}

def onNode (i : Fin 2) (call : Node X C V → Result (Node X C V)) (s : Pair T X C V) :
    Result Unit × Pair T X C V :=
  match call (s.nodes i) with
  | .ok n => (.ok (), { s with nodes := Function.update s.nodes i n })
  | .error e => (.error e, s)

def onJournal (t : Tx (File T) Fault Unit) (s : Pair T X C V) : Result Unit × Pair T X C V :=
  ((t.run s.journal).1, { s with journal := (t.run s.journal).2 })

/-- One durable step, after which the process may stop. -/
def perform (call : Pair T X C V → Result Unit × Pair T X C V) :
    Script (Pair T X C V) Bool Fault Unit :=
  Script.step fun stop s => ((call s).2, if stop then none else some (call s).1)

/-- A check that writes nothing. -/
def consult (check : Pair T X C V → Result α) : Script (Pair T X C V) Bool Fault α := do
  let answer ← Script.look check
  Script.ofExcept answer

section Calls

variable (E : BridgeEnv T) (host : Host X C V) (trust : Option Trust) (scope : Scope)
  (request : Request) (policy : Policy)

def fetch (s : Pair T X C V) : Result CommittedDecision :=
  ((File.fetch E.toGrantEnv scope request policy).run s.journal).1

def activatePair : Script (Pair T X C V) Bool Fault Unit := do
  consult fun s => ensure ((s.nodes 0).identity = (s.nodes 1).identity) "pair data identity mismatch"
  let decision ← consult (fetch E scope request policy)
  consult fun s => (s.nodes 0).verifyRecoveryDecision E host trust decision (request.prepared 0)
  consult fun s => (s.nodes 1).verifyRecoveryDecision E host trust decision (request.prepared 1)
  perform (onNode 1 fun n => n.activateMember E host trust decision 1)
  perform (onNode 0 fun n => n.activateMember E host trust decision 0)

/-- The loop body of `complete_pair` over both members. -/
def checkInstallation (i : Fin 2) (s : Pair T X C V) : Result Unit := do
  let a ← require (← (s.nodes i).readActive E) "inactive member"
  (s.nodes i).validateActive E host trust a
  ensure (a.request = request ∧ a.member = (request.prepared i).member)
    "completion installation mismatch"
  let found ← (s.nodes i).inspect E host trust request.plan (request.prepared i).member
  ensure (found = request.prepared i) "completion installation mismatch"

/-- Both acknowledgements, unless the journal already holds the completion. -/
def acknowledgePair (status : Status) : Script (Pair T X C V) Bool Fault Unit :=
  if status.completion.isNone then do
    let decision ← consult (fetch E scope request policy)
    consult fun s => (s.nodes 0).verifyRecoveryActive E host trust decision (request.prepared 0)
    consult fun s => (s.nodes 1).verifyRecoveryActive E host trust decision (request.prepared 1)
    perform (onJournal (File.acknowledge E.toGrantEnv scope decision (request.prepared 0) policy))
    perform (onJournal (File.acknowledge E.toGrantEnv scope decision (request.prepared 1) policy))
  else pure ()

def completePair (completion : Id) : Script (Pair T X C V) Bool Fault Unit := do
  consult fun _ => ensure (completion ≠ zeroId) "zero completion"
  let status ← consult fun s => ((File.status E.toGrantEnv scope).run s.journal).1
  consult fun _ => ensure (status.request = some request) "authority request mismatch"
  consult (checkInstallation E host trust request 0)
  consult (checkInstallation E host trust request 1)
  acknowledgePair E host trust scope request policy status
  perform (onJournal (File.complete E.toGrantEnv scope request completion policy))
  perform (onNode 1 fun n => n.completeMember E host trust request completion)
  perform (onNode 0 fun n => n.completeMember E host trust request completion)

end Calls

section Rules

variable {allow : Bool → Prop} {crash pre post : Pair T X C V → Prop}
  {fail : Fault → Pair T X C V → Prop}

theorem perform_triple {call : Pair T X C V → Result Unit × Pair T X C V}
    (succeeds : ∀ s, pre s → (call s).1 = .ok () ∧ post (call s).2)
    (stops : allow true → ∀ s, post s → crash s) :
    Triple allow crash pre (perform call) (fun _ => post) fail := by
  refine Triple.step fun stop s allowed hs => ?_
  obtain ⟨answer, reached⟩ := succeeds s hs
  cases stop with
  | true => exact stops allowed _ reached
  | false =>
    simp only [answer]
    exact reached

theorem consult_triple {check : Pair T X C V → Result α} {a : α}
    (succeeds : ∀ s, pre s → check s = .ok a) :
    Triple allow crash pre (consult check) (fun r s => r = a ∧ pre s) fail := by
  intro choices allowed n s hs
  simp only [consult, bind, Script.bind, Script.look, succeeds s hs]
  exact ⟨rfl, hs⟩

theorem consult_done {check : Pair T X C V → Result α} {choices : ℕ → Bool} {n n' : ℕ}
    {s s' : Pair T X C V} {a : α} (done : consult check choices n s = .done (.ok a) s' n') :
    check s = .ok a ∧ s' = s := by
  simp only [consult, bind, Script.bind, Script.look] at done
  cases answer : check s with
  | ok value =>
    rw [answer] at done
    cases done
    exact ⟨rfl, rfl⟩
  | error e =>
    rw [answer] at done
    cases done

theorem perform_done {call : Pair T X C V → Result Unit × Pair T X C V} {choices : ℕ → Bool}
    {n n' : ℕ} {s s' : Pair T X C V} (done : perform call choices n s = .done (.ok ()) s' n') :
    (call s).1 = .ok () := by
  simp only [perform, Script.step] at done
  cases stop : choices n with
  | true => simp [stop] at done
  | false =>
    simp only [stop, Bool.false_eq_true, if_false, CrashLogic.Outcome.done.injEq] at done
    exact done.1

end Rules

end Pair

end TerrapiVault.Replacement
