import TerrapiVault.Replacement.Pair

/-! The eight stages of a recovery. Every call of `activate_pair` and `complete_pair` finds
the pair at a stage, and moves it to the next one or leaves it where it is. -/
namespace TerrapiVault.Replacement

open Replication (Fault Result ensure)
open Recovery
open Maintenance (Prefix)
open Transaction (Tx)
open CrashLogic (Triple)

/-- A policy that never objects to the recovery of the scope. -/
structure Policy.Permissive (policy : Policy) (scope : Scope) : Prop where
  continuity : ∀ ask, policy.continuity ask scope = .ok ()
  applied : ∀ decision member, policy.applied scope decision member = .ok ()

variable {id : Id} {i : Fin 2}

section Journal

variable {T : Type → Type} {E : GrantEnv T} {scope : Scope} {file : File T} {r : Record}
  {policy : Policy} (accepted : file.read E scope = .ok (some r))
  (permissive : policy.Permissive scope)
include accepted

theorem File.status_run : (File.status E scope).run file =
    (.ok ⟨some r.request, r.acknowledgements, r.completion⟩, file) := by
  simp [File.status, File.readTx, Tx.run, Tx.read, Tx.lift, bind, pure, accepted]

include permissive

theorem File.fetch_run (undecided : r.completion = none) :
    (File.fetch E scope r.request policy).run file = (.ok (File.committed E r), file) := by
  simp [File.fetch, File.readTx, Tx.run, Tx.read, Tx.lift, bind, pure, Except.pure, accepted,
    permissive.continuity, require, undecided, ensure, Checked.ensure]

theorem File.fetch_run_error (completed : r.completion = some id) (request : Request) :
    ∃ e, (File.fetch E scope request policy).run file = (.error e, file) := by
  simp [File.fetch, File.readTx, Tx.run, Tx.read, Tx.lift, bind, accepted,
    permissive.continuity, require, completed, ensure, Checked.ensure]

theorem File.acknowledge_run {member : Prepared}
    (found : File.position r.request.prepared member = some i) (fits : E.bytes (E.encode
      { r with acknowledgements := Function.update r.acknowledgements i true }) ≤ maxDecision) :
    (File.acknowledge E scope (File.committed E r) member policy).run file =
      (.ok (), if r.acknowledgements i then file else { file with
        decision := some (E.cell
          { r with acknowledgements := Function.update r.acknowledgements i true }) }) := by
  cases set : r.acknowledgements i with
  | true =>
    simp [File.acknowledge, File.committed, File.readTx, Tx.run, Tx.read, Tx.lift, bind, pure, Except.pure,
      accepted, permissive.continuity, require, ensure, Checked.ensure, found, set]
  | false =>
    simp [File.acknowledge, File.committed, File.save, File.readTx, Tx.run, Tx.read, Tx.lift,
      Tx.write, Tx.commit, bind, accepted, permissive.continuity, permissive.applied, require,
      ensure, Checked.ensure, found, set, fits]

theorem File.complete_run (nonzero : id ≠ zeroId) (acknowledged : r.acknowledgements = both true)
    (agreed : ∀ previous ∈ r.completion, previous = id)
    (fits : E.bytes (E.encode { r with completion := some id }) ≤ maxDecision) :
    (File.complete E scope r.request id policy).run file =
      (.ok (), if r.completion.isSome then file else
        { file with decision := some (E.cell { r with completion := some id }) }) := by
  cases stored : r.completion with
  | some previous =>
    obtain rfl : previous = id := agreed previous stored
    simp [File.complete, File.readTx, Tx.run, Tx.read, Tx.lift, bind, accepted,
      permissive.continuity, require, ensure, Checked.ensure, nonzero, acknowledged, stored]
  | none =>
    rw [acknowledged] at fits
    simp [File.complete, File.save, File.readTx, Tx.run, Tx.read, Tx.lift, Tx.write, Tx.commit,
      bind, accepted, permissive.continuity, require, ensure, Checked.ensure, nonzero,
      acknowledged, stored, fits]

theorem File.complete_run_error {previous : Id} (stored : r.completion = some previous)
    (other : previous ≠ id) (request : Request) :
    ∃ e, (File.complete E scope request id policy).run file = (.error e, file) := by
  by_cases nonzero : id = zeroId
  · simp [File.complete, Tx.run, Tx.lift, bind, ensure, Checked.ensure, nonzero]
  by_cases evidence : r.request = request ∧ r.acknowledgements = both true
  · simp [File.complete, File.readTx, Tx.run, Tx.read, Tx.lift, bind, accepted,
      permissive.continuity, require, ensure, Checked.ensure, nonzero, evidence, stored, other]
  · simp [File.complete, File.readTx, Tx.run, Tx.read, Tx.lift, bind, accepted,
      permissive.continuity, require, ensure, Checked.ensure, nonzero, evidence]

end Journal

/-- How far the three files are. -/
inductive Stage where
  | recorded
  | survivorActive
  | bothActive
  | candidateAcknowledged
  | bothAcknowledged
  | decided (id : Id)
  | survivorCompleted (id : Id)
  | completed (id : Id)
deriving DecidableEq

variable {stage stage' : Stage}

namespace Stage

def rank : Stage → ℕ
  | recorded => 0
  | survivorActive => 1
  | bothActive => 2
  | candidateAcknowledged => 3
  | bothAcknowledged => 4
  | decided _ => 5
  | survivorCompleted _ => 6
  | completed _ => 7

def completion : Stage → Option Id
  | decided id | survivorCompleted id | completed id => some id
  | _ => none

def candidate : Stage → Level
  | recorded | survivorActive => .recorded
  | completed id => .completed id
  | _ => .active

def survivor : Stage → Level
  | recorded => .recorded
  | survivorCompleted id | completed id => .completed id
  | _ => .active

def level (stage : Stage) (i : Fin 2) : Level := if i = 0 then stage.candidate else stage.survivor

def acknowledgements : Stage → Fin 2 → Bool
  | recorded | survivorActive | bothActive => both false
  | candidateAcknowledged => Function.update (both false) 0 true
  | _ => both true

def record (r : Record) (stage : Stage) : Record :=
  { r with acknowledgements := stage.acknowledgements, completion := stage.completion }

/-- What each durable step does to the stage. -/
def activateSurvivor : Stage → Stage
  | recorded => survivorActive
  | stage => stage

def activateCandidate : Stage → Stage
  | survivorActive => bothActive
  | stage => stage

def acknowledgeCandidate : Stage → Stage
  | bothActive => candidateAcknowledged
  | stage => stage

def acknowledgeSurvivor : Stage → Stage
  | candidateAcknowledged => bothAcknowledged
  | stage => stage

def decide (id : Id) : Stage → Stage
  | bothAcknowledged => decided id
  | stage => stage

def completeSurvivor : Stage → Stage
  | decided id => survivorCompleted id
  | stage => stage

def completeCandidate : Stage → Stage
  | survivorCompleted id => completed id
  | stage => stage

/-- The completion a stage has recorded is one the journal could store. -/
def Proper (stage : Stage) : Prop := ∀ id ∈ stage.completion, id ≠ zeroId

theorem finish (far : 4 ≤ stage.rank) (agreed : ∀ previous ∈ stage.completion, previous = id) :
    (stage.decide id).completion = some id ∧
      (stage.decide id).completeSurvivor.completion = some id ∧
      6 ≤ (stage.decide id).completeSurvivor.rank ∧
      (stage.decide id).completeSurvivor.completeCandidate = .completed id := by
  cases stage <;> simp_all [decide, completeSurvivor, completeCandidate,
    completion, rank]

theorem live (ready : 2 ≤ stage.rank) (i : Fin 2) : stage.level i ≠ .recorded := by
  revert i
  rw [Fin.forall_fin_two]
  cases stage <;> simp_all [level, candidate, survivor, rank]

end Stage

/-- The pair at a stage of the recovery that began at `start`. -/
def Stage.pair {T : Type → Type} (E : BridgeEnv T) {X C V : Type} (d : CommittedDecision)
    (checkpoint : Prefix) (r : Record) (start : Pair T X C V) (stage : Stage) : Pair T X C V where
  nodes i := (start.nodes i).holding (d.record checkpoint i) i (stage.level i)
  journal := { start.journal with decision := some (E.cell (stage.record r)) }

/-- A journal that holds the record of a decision, with what the later stages need. -/
structure Decided {T : Type → Type} (E : BridgeEnv T) (scope : Scope) (d : CommittedDecision)
    (r : Record) (journal : File T) : Prop where
  decision : File.committed E.toGrantEnv r = d
  stored : journal.decision = some (E.cell (Stage.recorded.record r))
  bound : journal.checkScope E.toGrantEnv scope = .ok ()
  valid : r.request.validate scope.baseline = .ok ()
  sound : ∀ stage : Stage, stage.Proper → (stage.record r).Sound
  fits : ∀ stage : Stage, E.bytes (E.encode (stage.record r)) ≤ maxDecision

theorem Decided.read {T : Type → Type} {E : BridgeEnv T} {scope : Scope} {d : CommittedDecision}
    {r : Record} {journal : File T} (decided : Decided E scope d r journal) :
    journal.read E.toGrantEnv scope = .ok (some (Stage.recorded.record r)) := by
  have first : Stage.recorded.Proper := by simp [Stage.Proper, Stage.completion]
  have stored : journal = { journal with
      decision := some (E.cell (Stage.recorded.record r)) } := by
    rw [← decided.stored]
  rw [stored]
  exact File.read_cell decided.bound
    ⟨decided.fits .recorded, decided.valid, decided.sound .recorded first⟩

/-- A pair at the first stage. -/
structure Begun {T : Type → Type} (E : BridgeEnv T) {X C V : Type} (host : Host X C V)
    (trust : Option Trust) (scope : Scope) (d : CommittedDecision) (checkpoint : Prefix)
    (r : Record) (start : Pair T X C V) : Prop extends Decided E scope d r start.journal where
  installed : ∀ i, Installed E host trust d checkpoint i (start.nodes i)

section Steps

variable {T : Type → Type} {E : BridgeEnv T} {X C V : Type} {host : Host X C V}
  {trust : Option Trust} {scope : Scope} {d : CommittedDecision} {checkpoint : Prefix} {r : Record}
  {start : Pair T X C V} {policy : Policy}

theorem Stage.pair_update (others : ∀ j, j ≠ i → stage'.level j = stage.level j)
    (same : stage'.record r = stage.record r) :
    { stage.pair E d checkpoint r start with
      nodes := Function.update (stage.pair E d checkpoint r start).nodes i
        ((start.nodes i).holding (d.record checkpoint i) i (stage'.level i)) } =
      stage'.pair E d checkpoint r start := by
  have nodes : Function.update (stage.pair E d checkpoint r start).nodes i
      ((start.nodes i).holding (d.record checkpoint i) i (stage'.level i)) =
      (stage'.pair E d checkpoint r start).nodes := by
    funext j
    by_cases here : j = i
    · subst here
      rw [Function.update_self]
      rfl
    · rw [Function.update_of_ne here]
      simp only [Stage.pair, others j here]
  rw [nodes]
  simp only [Stage.pair, same]

theorem Stage.onNode {call : Node X C V → Result (Node X C V)}
    (called : call ((start.nodes i).holding (d.record checkpoint i) i (stage.level i)) =
      .ok ((start.nodes i).holding (d.record checkpoint i) i (stage'.level i)))
    (others : ∀ j, j ≠ i → stage'.level j = stage.level j)
    (same : stage'.record r = stage.record r) :
    Pair.onNode i call (stage.pair E d checkpoint r start) =
      (.ok (), stage'.pair E d checkpoint r start) := by
  have called : call ((stage.pair E d checkpoint r start).nodes i) = _ := called
  unfold Pair.onNode
  rw [called]
  exact congrArg (Prod.mk _) (Stage.pair_update others same)

theorem Stage.onJournal {t : Tx (File T) Fault Unit}
    (called : t.run (stage.pair E d checkpoint r start).journal =
      (.ok (), { start.journal with decision := some (E.cell (stage'.record r)) }))
    (same : stage'.level = stage.level) :
    Pair.onJournal t (stage.pair E d checkpoint r start) =
      (.ok (), stage'.pair E d checkpoint r start) := by
  unfold Pair.onJournal
  rw [called]
  simp only [Stage.pair, same]

namespace Begun

variable (b : Begun E host trust scope d checkpoint r start)
include b

theorem read (proper : stage.Proper) :
    (stage.pair E d checkpoint r start).journal.read E.toGrantEnv scope =
      .ok (some (stage.record r)) :=
  File.read_cell b.bound ⟨b.fits stage, b.valid, b.sound stage proper⟩

theorem start_eq : start = Stage.recorded.pair E d checkpoint r start := by
  have nodes : start.nodes = (Stage.recorded.pair E d checkpoint r start).nodes := by
    funext i
    have level : Stage.recorded.level i = .recorded := by
      simp [Stage.level, Stage.candidate, Stage.survivor]
    simp only [Stage.pair, level]
    rfl
  have journal : start.journal = (Stage.recorded.pair E d checkpoint r start).journal := by
    rw [Stage.pair, ← b.stored]
  exact congrArg₂ Pair.mk nodes journal

theorem request_eq : r.request = d.request := congrArg CommittedDecision.request b.decision

theorem committed_eq (stage : Stage) : File.committed E.toGrantEnv (stage.record r) = d := b.decision

theorem identity_eq (stage : Stage) (i : Fin 2) :
    ((stage.pair E d checkpoint r start).nodes i).identity = checkpoint.identity := by
  obtain ⟨view, current⟩ := (b.installed i).current
  have kept : ((stage.pair E d checkpoint r start).nodes i).identity = (start.nodes i).identity := by
    simp only [Stage.pair]
    cases stage.level i <;> rfl
  rw [kept, Replication.Store.current_identity current]

theorem activateSurvivor (stage : Stage) :
    Pair.onNode 1 (fun n => n.activateMember E host trust d 1) (stage.pair E d checkpoint r start) =
      (.ok (), stage.activateSurvivor.pair E d checkpoint r start) := by
  refine Stage.onNode ?_ ?_ ?_
  · rw [(b.installed 1).activateMember]
    cases stage <;> rfl
  · cases stage <;> simp [Fin.forall_fin_two, Stage.level, Stage.activateSurvivor, Stage.candidate]
  · cases stage <;> rfl

theorem activateCandidate (stage : Stage) (ready : 1 ≤ stage.rank) :
    Pair.onNode 0 (fun n => n.activateMember E host trust d 0) (stage.pair E d checkpoint r start) =
      (.ok (), stage.activateCandidate.pair E d checkpoint r start) := by
  refine Stage.onNode ?_ ?_ ?_
  · rw [(b.installed 0).activateMember]
    cases stage with
    | recorded => simp [Stage.rank] at ready
    | _ => rfl
  · cases stage <;> simp [Fin.forall_fin_two, Stage.level, Stage.activateCandidate, Stage.survivor]
  · cases stage <;> rfl

theorem completeSurvivor (nonzero : id ≠ zeroId) (stored : stage.completion = some id) :
    Pair.onNode 1 (fun n => n.completeMember E host trust d.request id)
        (stage.pair E d checkpoint r start) =
      (.ok (), stage.completeSurvivor.pair E d checkpoint r start) := by
  refine Stage.onNode ?_ ?_ ?_
  · rw [(b.installed 1).completeMember nonzero]
    · cases stage <;> simp_all [Stage.completion, Stage.level, Stage.completeSurvivor, Stage.survivor]
    · cases stage <;> simp_all [Stage.completion, Stage.level, Stage.survivor]
  · cases stage <;> simp [Fin.forall_fin_two, Stage.level, Stage.completeSurvivor, Stage.candidate]
  · cases stage <;> rfl

theorem completeCandidate (nonzero : id ≠ zeroId) (stored : stage.completion = some id)
    (ready : 6 ≤ stage.rank) :
    Pair.onNode 0 (fun n => n.completeMember E host trust d.request id)
        (stage.pair E d checkpoint r start) =
      (.ok (), stage.completeCandidate.pair E d checkpoint r start) := by
  refine Stage.onNode ?_ ?_ ?_
  · rw [(b.installed 0).completeMember nonzero]
    · cases stage <;> simp_all [Stage.completion, Stage.level, Stage.completeCandidate,
        Stage.candidate, Stage.rank]
    · cases stage <;> simp_all [Stage.completion, Stage.level, Stage.candidate]
  · cases stage <;> simp [Fin.forall_fin_two, Stage.level, Stage.completeCandidate, Stage.survivor]
  · cases stage <;> rfl

variable (permissive : policy.Permissive scope)

theorem position (i : Fin 2) :
    File.position d.request.prepared (d.request.prepared i) = some i := by
  have distinct := (Request.validate_eq_ok.mp (b.installed 0).valid).2.1.2.2.2.2.2.2
  have different : d.request.prepared 0 ≠ d.request.prepared 1 := by
    intro same
    have members := (b.installed 0).member_eq.symm.trans
      ((congrArg Prepared.member same).trans (b.installed 1).member_eq)
    exact distinct (by simpa [Request.members] using members)
  rcases Recovery.participant_cases i with rfl | rfl
  · simp [File.position]
  · simp [File.position, different]

include permissive

theorem acknowledge (proper : stage.Proper) (levels : stage'.level = stage.level)
    (completions : stage'.completion = stage.completion)
    (acknowledgements : stage'.acknowledgements = Function.update stage.acknowledgements i true) :
    Pair.onJournal
        (File.acknowledge E.toGrantEnv scope d (d.request.prepared i) policy)
        (stage.pair E d checkpoint r start) = (.ok (), stage'.pair E d checkpoint r start) := by
  have next : { stage.record r with
      acknowledgements := Function.update (stage.record r).acknowledgements i true } =
      stage'.record r := by
    simp only [Stage.record, acknowledgements, completions]
  have found : File.position (stage.record r).request.prepared (d.request.prepared i) = some i := by
    rw [show (stage.record r).request = d.request from b.request_eq]
    exact b.position i
  have run := File.acknowledge_run (b.read proper) permissive found (by rw [next]; exact b.fits stage')
  rw [b.committed_eq, next] at run
  refine Stage.onJournal (run.trans (congrArg (Prod.mk _) ?_)) levels
  split
  · rename_i set
    have unchanged : stage'.record r = stage.record r := by
      rw [← next]
      have kept : Function.update (stage.record r).acknowledgements i true =
          (stage.record r).acknowledgements := by
        rw [← set, Function.update_eq_self]
      rw [kept]
    rw [unchanged]
    rfl
  · rfl

theorem acknowledgeCandidate (proper : stage.Proper) (ready : 2 ≤ stage.rank) :
    Pair.onJournal
        (File.acknowledge E.toGrantEnv scope d (d.request.prepared 0) policy)
        (stage.pair E d checkpoint r start) =
      (.ok (), stage.acknowledgeCandidate.pair E d checkpoint r start) := by
  refine b.acknowledge permissive proper ?_ ?_ ?_
  · cases stage <;> rfl
  · cases stage <;> rfl
  · cases stage <;>
      simp_all [Stage.acknowledgements, Stage.acknowledgeCandidate, Stage.rank, both]

theorem acknowledgeSurvivor (proper : stage.Proper) (ready : 3 ≤ stage.rank) :
    Pair.onJournal
        (File.acknowledge E.toGrantEnv scope d (d.request.prepared 1) policy)
        (stage.pair E d checkpoint r start) =
      (.ok (), stage.acknowledgeSurvivor.pair E d checkpoint r start) := by
  refine b.acknowledge permissive proper ?_ ?_ ?_
  · cases stage <;> rfl
  · cases stage <;> rfl
  · refine funext (Fin.forall_fin_two.mpr ?_)
    cases stage <;>
      simp_all [Stage.acknowledgements, Stage.acknowledgeSurvivor, Stage.rank, both]

theorem decide (proper : stage.Proper) (nonzero : id ≠ zeroId)
    (agreed : ∀ previous ∈ stage.completion, previous = id) (ready : 4 ≤ stage.rank) :
    Pair.onJournal (File.complete E.toGrantEnv scope d.request id policy)
        (stage.pair E d checkpoint r start) =
      (.ok (), (stage.decide id).pair E d checkpoint r start) := by
  have acknowledged : (stage.record r).acknowledgements = both true := by
    cases stage <;> simp_all [Stage.record, Stage.acknowledgements, Stage.rank]
  have next : { stage.record r with completion := some id } = (stage.decide id).record r := by
    cases stage <;>
      simp_all [Stage.record, Stage.decide, Stage.acknowledgements, Stage.completion, Stage.rank]
  have run := File.complete_run (b.read proper) permissive nonzero acknowledged agreed
    (by rw [next]; exact b.fits _)
  rw [next, show (stage.record r).request = d.request from b.request_eq] at run
  refine Stage.onJournal (run.trans (congrArg (Prod.mk _) ?_)) ?_
  · split
    · rename_i stored
      have unchanged : (stage.decide id).record r = stage.record r := by
        cases stage with
        | bothAcknowledged => cases stored
        | _ => rfl
      rw [unchanged]
      rfl
    · rfl
  · cases stage <;> rfl

variable {allow : Bool → Prop} {crash : Pair T X C V → Prop} {fail : Fault → Pair T X C V → Prop}

omit b permissive in
theorem step_triple {call : Pair T X C V → Result Unit × Pair T X C V}
    (called : call (stage.pair E d checkpoint r start) =
      (.ok (), stage'.pair E d checkpoint r start))
    (stops : allow true → crash (stage'.pair E d checkpoint r start)) :
    Triple allow crash (· = stage.pair E d checkpoint r start) (Pair.perform call)
      (fun _ s => s = stage'.pair E d checkpoint r start) fail := by
  refine Pair.perform_triple ?_ ?_
  · rintro s rfl
    exact ⟨congrArg Prod.fst called, congrArg Prod.snd called⟩
  · rintro allowed s rfl
    exact stops allowed

omit b permissive in
theorem check_triple {α : Type} {check : Pair T X C V → Result α} {a : α}
    (checked : check (stage.pair E d checkpoint r start) = .ok a) :
    Triple allow crash (· = stage.pair E d checkpoint r start) (Pair.consult check)
      (fun answer s => answer = a ∧ s = stage.pair E d checkpoint r start) fail := by
  refine Pair.consult_triple ?_
  rintro s rfl
  exact checked

theorem fetch (undecided : stage.completion = none) :
    Pair.fetch E scope d.request policy (stage.pair E d checkpoint r start) = .ok d := by
  have proper : stage.Proper := by
    intro id stored
    rw [undecided] at stored
    cases stored
  have fetched := File.fetch_run (b.read proper) permissive undecided
  rw [show (stage.record r).request = d.request from b.request_eq, b.committed_eq] at fetched
  exact congrArg Prod.fst fetched

theorem activatePair_triple (undecided : stage.completion = none)
    (stops : allow true → ∀ stage : Stage, stage.Proper →
      crash (stage.pair E d checkpoint r start)) :
    Triple allow crash (· = stage.pair E d checkpoint r start)
      (Pair.activatePair E host trust scope d.request policy)
      (fun _ s => s = stage.activateSurvivor.activateCandidate.pair E d checkpoint r start)
      fail := by
  have proper : stage.activateSurvivor.Proper ∧ stage.activateSurvivor.activateCandidate.Proper := by
    cases stage <;> simp_all [Stage.Proper, Stage.completion, Stage.activateSurvivor,
      Stage.activateCandidate]
  have ready : 1 ≤ stage.activateSurvivor.rank := by
    cases stage <;> simp [Stage.activateSurvivor, Stage.rank]
  have paired : ensure (((stage.pair E d checkpoint r start).nodes 0).identity =
      ((stage.pair E d checkpoint r start).nodes 1).identity) "pair data identity mismatch" =
      .ok () := Replication.ensure_eq_ok.mpr ((b.identity_eq stage 0).trans (b.identity_eq stage 1).symm)
  unfold Pair.activatePair
  refine Triple.known (check_triple paired) ?_
  refine Triple.known (check_triple (b.fetch permissive undecided)) ?_
  refine Triple.known (check_triple ((b.installed 0).verifyRecoveryDecision _)) ?_
  refine Triple.known (check_triple ((b.installed 1).verifyRecoveryDecision _)) ?_
  refine Triple.bind (step_triple (b.activateSurvivor stage) fun allowed => ?_) fun _ => ?_
  · exact stops allowed _ proper.1
  · exact step_triple (b.activateCandidate _ ready) fun allowed => stops allowed _ proper.2

omit permissive in
theorem checkInstallation (ready : 2 ≤ stage.rank) (i : Fin 2) :
    Pair.checkInstallation E host trust d.request i (stage.pair E d checkpoint r start) =
      .ok () := by
  have live := Stage.live ready i
  simp only [Pair.checkInstallation, checked_ok, Recovery.require_eq_ok]
  exact ⟨_, (b.installed i).readActive live, _, rfl, (b.installed i).validateActive live,
    ⟨rfl, rfl⟩, _, (b.installed i).inspect _, rfl⟩

theorem acknowledgePair_triple (proper : stage.Proper) (ready : 2 ≤ stage.rank) {status : Status}
    (reported : status.completion = stage.completion)
    (stops : allow true → ∀ stage : Stage, stage.Proper →
      crash (stage.pair E d checkpoint r start)) :
    Triple allow crash (· = stage.pair E d checkpoint r start)
      (Pair.acknowledgePair E host trust scope d.request policy status)
      (fun _ s =>
        s = stage.acknowledgeCandidate.acknowledgeSurvivor.pair E d checkpoint r start) fail := by
  unfold Pair.acknowledgePair
  rw [reported]
  split
  · rename_i undecided
    rw [Option.isNone_iff_eq_none] at undecided
    have kept : stage.acknowledgeCandidate.Proper ∧
        stage.acknowledgeCandidate.acknowledgeSurvivor.Proper := by
      cases stage <;> simp_all [Stage.Proper, Stage.completion, Stage.acknowledgeCandidate,
        Stage.acknowledgeSurvivor]
    have further : 3 ≤ stage.acknowledgeCandidate.rank := by
      cases stage <;> simp_all [Stage.acknowledgeCandidate, Stage.rank]
    refine Triple.known (check_triple (b.fetch permissive undecided)) ?_
    refine Triple.known (check_triple ((b.installed 0).verifyRecoveryActive (Stage.live ready 0))) ?_
    refine Triple.known (check_triple ((b.installed 1).verifyRecoveryActive (Stage.live ready 1))) ?_
    refine Triple.bind (step_triple (b.acknowledgeCandidate permissive proper ready) ?_) fun _ => ?_
    · exact fun allowed => stops allowed _ kept.1
    · exact step_triple (b.acknowledgeSurvivor permissive kept.1 further) fun allowed =>
        stops allowed _ kept.2
  · rename_i decided
    refine Triple.pure () fun s hs => hs.trans ?_
    cases stage <;> simp_all [Stage.completion] <;> rfl

theorem completePair_triple (proper : stage.Proper) (ready : 2 ≤ stage.rank)
    (nonzero : id ≠ zeroId) (agreed : ∀ previous ∈ stage.completion, previous = id)
    (stops : allow true → ∀ stage : Stage, stage.Proper →
      crash (stage.pair E d checkpoint r start)) :
    Triple allow crash (· = stage.pair E d checkpoint r start)
      (Pair.completePair E host trust scope d.request policy id)
      (fun _ s => s = (Stage.completed id).pair E d checkpoint r start) fail := by
  have status := File.status_run (b.read proper)
  rw [show (stage.record r).request = d.request from b.request_eq] at status
  unfold Pair.completePair
  refine Triple.known (a := ()) (check_triple (Replication.ensure_eq_ok.mpr nonzero)) ?_
  refine Triple.known (check_triple (congrArg Prod.fst status)) ?_
  refine Triple.known (a := ()) (check_triple (Replication.ensure_eq_ok.mpr rfl)) ?_
  refine Triple.known (check_triple (b.checkInstallation ready 0)) ?_
  refine Triple.known (check_triple (b.checkInstallation ready 1)) ?_
  refine Triple.bind (b.acknowledgePair_triple permissive proper ready rfl stops) fun _ => ?_
  generalize later : stage.acknowledgeCandidate.acknowledgeSurvivor = acknowledged
  have far : 4 ≤ acknowledged.rank := by
    subst later
    cases stage <;> simp_all [Stage.acknowledgeCandidate, Stage.acknowledgeSurvivor, Stage.rank]
  have kept : acknowledged.completion = stage.completion := by
    subst later
    cases stage <;> rfl
  have agreed : ∀ previous ∈ acknowledged.completion, previous = id := by rwa [kept]
  have proper : acknowledged.Proper := by rwa [Stage.Proper, kept]
  obtain ⟨stored, receipt, enough, last⟩ := Stage.finish far agreed
  have properAt : ∀ stage : Stage, stage.completion = some id → stage.Proper := by
    intro stage stored previous found
    rw [stored] at found
    exact Option.some.inj found ▸ nonzero
  refine Triple.bind (step_triple (b.decide permissive proper nonzero agreed far) ?_) fun _ => ?_
  · exact fun allowed => stops allowed _ (properAt _ stored)
  refine Triple.bind (step_triple (b.completeSurvivor nonzero stored) ?_) fun _ => ?_
  · exact fun allowed => stops allowed _ (properAt _ receipt)
  rw [← last]
  refine step_triple (b.completeCandidate nonzero receipt enough) fun allowed => ?_
  exact stops allowed _ (properAt _ (last ▸ rfl))

end Begun

end Steps

end TerrapiVault.Replacement
