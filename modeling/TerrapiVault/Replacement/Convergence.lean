import TerrapiVault.Replacement.Stages
import TerrapiVault.Maintenance.Lineage

/-! A recovery that is interrupted and resumed any number of times. Whatever calls are made
and wherever they stop, the pair is at one of the eight stages, and from each of them the
recovery can be carried to its end. -/
namespace TerrapiVault.Replacement

open Replication (Fault Result)
open Recovery (Id zeroId Trust both)
open Maintenance (Prefix Manifest)
open Transaction (Tx)
open CrashLogic (Script Triple)

section Refusals

variable {T : Type → Type} {E : BridgeEnv T} {X C V α β : Type} {host : Host X C V}
  {trust : Option Trust} {scope : Scope} {d : CommittedDecision} {checkpoint : Prefix} {r : Record}
  {start : Pair T X C V} {policy : Policy} {allow : Bool → Prop} {crash : Pair T X C V → Prop}
  {post : β → Pair T X C V → Prop} {stage : Stage}

theorem Stage.refuse {check : Pair T X C V → Result α} {e : Fault}
    {rest : α → Script (Pair T X C V) Bool Fault β}
    (refused : check (stage.pair E d checkpoint r start) = .error e) :
    Triple allow crash (· = stage.pair E d checkpoint r start) (Pair.consult check >>= rest) post
      (fun _ s => s = stage.pair E d checkpoint r start) := by
  rintro choices allowed n s rfl
  simp only [bind, Script.bind, Pair.consult, Script.look, refused]
  rfl

theorem Stage.refuseStep {call : Pair T X C V → Result Unit × Pair T X C V} {e : Fault}
    {rest : Unit → Script (Pair T X C V) Bool Fault β}
    (refused : call (stage.pair E d checkpoint r start) =
      (.error e, stage.pair E d checkpoint r start))
    (stops : crash (stage.pair E d checkpoint r start)) :
    Triple allow crash (· = stage.pair E d checkpoint r start) (Pair.perform call >>= rest) post
      (fun _ s => s = stage.pair E d checkpoint r start) := by
  have failing : Triple allow crash (· = stage.pair E d checkpoint r start) (Pair.perform call)
      (fun _ _ => False) (fun _ s => s = stage.pair E d checkpoint r start) := by
    refine Triple.step ?_
    rintro stop s allowed rfl
    cases stop with
    | true =>
      simp only [refused]
      exact stops
    | false => simp [refused]
  exact Triple.bind failing fun _ _ _ _ _ unreachable => unreachable.elim

variable (b : Begun E host trust scope d checkpoint r start) (permissive : policy.Permissive scope)
include b

theorem Begun.checkInstallation_refused (early : stage.rank < 2) :
    ∃ e, Pair.checkInstallation E host trust d.request 0 (stage.pair E d checkpoint r start) =
      .error e := by
  have level : stage.level 0 = .recorded := by
    cases stage <;> simp_all [Stage.rank, Stage.level, Stage.candidate]
  have unread : ((stage.pair E d checkpoint r start).nodes 0).readActive E = .ok none := by
    refine Node.readActive_eq_ok.mpr ⟨?_, by simp⟩
    simp only [Stage.pair, level]
    exact (b.installed 0).inactive
  rw [Pair.checkInstallation, unread]
  exact ⟨_, rfl⟩

include permissive

/-- Once the journal holds the completion, activation is refused and changes nothing. -/
theorem Begun.activatePair_refused (proper : stage.Proper) {id : Id}
    (stored : stage.completion = some id) :
    Triple allow crash (· = stage.pair E d checkpoint r start)
      (Pair.activatePair E host trust scope d.request policy) (fun _ _ => False)
      (fun _ s => s = stage.pair E d checkpoint r start) := by
  have paired := (b.identity_eq stage 0).trans (b.identity_eq stage 1).symm
  obtain ⟨e, refused⟩ := File.fetch_run_error (b.read proper) permissive stored d.request
  unfold Pair.activatePair
  refine Triple.known (a := ()) (Begun.check_triple (Replication.ensure_eq_ok.mpr paired)) ?_
  exact Stage.refuse (congrArg Prod.fst refused)

theorem Begun.complete_refused (proper : stage.Proper) {previous id : Id}
    (stored : stage.completion = some previous) (other : previous ≠ id) :
    ∃ e, Pair.onJournal (File.complete E.toGrantEnv scope d.request id policy)
        (stage.pair E d checkpoint r start) = (.error e, stage.pair E d checkpoint r start) := by
  obtain ⟨e, refused⟩ := File.complete_run_error (b.read proper) permissive stored other d.request
  refine ⟨e, ?_⟩
  unfold Pair.onJournal
  rw [refused]

/-- A completion that is too early, zero or different from the stored one is refused. -/
theorem Begun.completePair_refused (proper : stage.Proper) {id : Id}
    (wrong : id = zeroId ∨ stage.rank < 2 ∨ ∃ previous ∈ stage.completion, previous ≠ id)
    (stops : crash (stage.pair E d checkpoint r start)) :
    Triple allow crash (· = stage.pair E d checkpoint r start)
      (Pair.completePair E host trust scope d.request policy id) (fun _ _ => False)
      (fun _ s => s = stage.pair E d checkpoint r start) := by
  have status := File.status_run (b.read proper)
  rw [show (stage.record r).request = d.request from b.request_eq] at status
  unfold Pair.completePair
  by_cases nonzero : id ≠ zeroId
  case neg =>
    exact Stage.refuse (Checked.ensure_not _ nonzero)
  refine Triple.known (a := ()) (Begun.check_triple (Replication.ensure_eq_ok.mpr nonzero)) ?_
  refine Triple.known (Begun.check_triple (congrArg Prod.fst status)) ?_
  refine Triple.known (a := ()) (Begun.check_triple (Replication.ensure_eq_ok.mpr rfl)) ?_
  by_cases ready : 2 ≤ stage.rank
  case neg =>
    obtain ⟨e, refused⟩ := b.checkInstallation_refused (Nat.lt_of_not_le ready)
    exact Stage.refuse refused
  obtain ⟨previous, stored, other⟩ : ∃ previous ∈ stage.completion, previous ≠ id := by
    rcases wrong with zero | early | other
    · exact absurd zero nonzero
    · omega
    · exact other
  obtain ⟨e, refused⟩ := b.complete_refused permissive proper stored other
  have decided : Pair.acknowledgePair E host trust scope d.request policy
      ⟨some d.request, (stage.record r).acknowledgements, (stage.record r).completion⟩ =
      pure () := by
    rw [Option.mem_def] at stored
    simp [Pair.acknowledgePair, Stage.record, stored]
  refine Triple.known (Begun.check_triple (b.checkInstallation ready 0)) ?_
  refine Triple.known (Begun.check_triple (b.checkInstallation ready 1)) ?_
  rw [decided]
  exact Triple.bind (Triple.pure () fun _ hs => hs) fun _ => Stage.refuseStep refused stops

end Refusals

section Runs

variable {T : Type → Type} (E : BridgeEnv T) {X C V : Type} (host : Host X C V)
  (trust : Option Trust) (scope : Scope)

/-- One call of `activate_pair` or `complete_pair` under a permissive policy, stopped anywhere. -/
def Pair.Ran (request : Request) (s s' : Pair T X C V) : Prop :=
  ∃ policy : Policy, policy.Permissive scope ∧ ∃ stops : ℕ → Bool,
    s' = (activatePair E host trust scope request policy stops 0 s).final ∨
      ∃ id, s' = (completePair E host trust scope request policy id stops 0 s).final

abbrev Pair.Reaches (request : Request) : Pair T X C V → Pair T X C V → Prop :=
  Relation.ReflTransGen (Pair.Ran E host trust scope request)

/-- Activation, unless the journal already holds the completion, and then completion. -/
def Pair.resume (request : Request) (policy : Policy) (id : Id) :
    Script (Pair T X C V) Bool Fault Unit := do
  let status ← consult fun s => ((File.status E.toGrantEnv scope).run s.journal).1
  (if status.completion.isNone then activatePair E host trust scope request policy else pure ())
  completePair E host trust scope request policy id

/-- Lengths of JSON texts: identifiers are arrays of 32 numbers, a part is not longer than
the whole, and a verified token has no character that JSON escapes. -/
structure Sizes : Prop where
  active : ∀ a : Active, E.bytes (E.encode a) ≤
    E.bytes (E.encode a.request.plan) + E.bytes (E.encode a.checkpoint) + 2048
  manifest : ∀ m : Manifest, E.bytes (E.encode m.checkpoint) ≤ E.bytes (E.encode m)
  record : ∀ (r : Record) (ctx : Context) (grant : VerifiedGrant), E.verify r.token ctx = .ok grant →
    E.bytes (E.encode r) ≤ E.bytes (E.encode r.request.plan) + r.token.utf8ByteSize + 2048

/-- Both members have recorded the decision of a journal that has just decided, the
candidate stands on the publication it was restored from, and neither has gone further.
Neither carries compaction certificates or a participant loss. -/
structure Pair.Recorded (d : CommittedDecision) (start : Pair T X C V) : Prop where
  decided : ∃ file token policy, File.read E.toGrantEnv scope file = .ok none ∧
    (File.decide E.toGrantEnv scope d.request token policy).run file = (.ok (), start.journal) ∧
    E.tokenDigest token ≠ zeroId
  fetched : ∃ policy, Pair.fetch E scope d.request policy start = .ok d
  recorded : ∀ i, ∃ before, Node.recordRecoveryDecision E host trust before d
    (d.request.prepared i).member = .ok (start.nodes i)
  inspected : ∀ i, (start.nodes i).inspect E host trust d.request.plan
    (d.request.prepared i).member = .ok (d.request.prepared i)
  restricted : ∀ i, (start.nodes i).role = .secondary
  inactive : ∀ i, (start.nodes i).active = none ∧ (start.nodes i).completion = none
  plain : ∀ i, (start.nodes i).segments.certificates = none
  unlost : ∀ i, host.loss none (start.nodes i).rest = .ok none
  restored : ∃ (m : Manifest) (text : T Manifest) (view : V), m.encode E.toEnv = .ok text ∧
    (start.nodes 0).store.base = some m.checkpoint ∧
    (start.nodes 0).store.current host.schema (start.nodes 0).identity true =
      .ok (m.checkpoint, view)
  collisionFree : ∀ a b va vb,
    (start.nodes 0).store.current host.schema (start.nodes 0).identity true = .ok (a, va) →
    (start.nodes 1).store.current host.schema (start.nodes 1).identity true = .ok (b, vb) →
    E.digest a = E.digest b → a = b

/-- Node `i` holds the active record of the decision. -/
def Pair.HoldsActive (d : CommittedDecision) (i : Fin 2) (s : Pair T X C V) : Prop :=
  ∃ checkpoint, (s.nodes i).active = some (d.record checkpoint i)

/-- What holds of every state an interrupted recovery reaches. -/
structure Pair.Converges (d : CommittedDecision) (s : Pair T X C V) : Prop where
  ordered : (s.nodes 0).role = .primary → s.HoldsActive d 1
  admitted : ∀ i, (s.nodes i).active.isSome → (s.nodes i).recoveryAdmission E host trust = .ok () →
    (∀ j, s.HoldsActive d j) ∧ ∃ r id receipt,
      s.journal.read E.toGrantEnv scope = .ok (some r) ∧ r.request = d.request ∧
      r.acknowledgements = both true ∧ r.completion = some id ∧
      (s.nodes i).completion = some receipt ∧ receipt.completion = id
  resumes : ∀ (policy : Policy) (id : Id), policy.Permissive scope → id ≠ zeroId →
    (∀ r previous, s.journal.read E.toGrantEnv scope = .ok (some r) →
      r.completion = some previous → id = previous) →
    ∃ s', (Pair.resume E host trust scope d.request policy id (fun _ => false) 0 s).value? =
        some (.ok ()) ∧
      (Pair.resume E host trust scope d.request policy id (fun _ => false) 0 s).final = s' ∧
      (∀ i, (s'.nodes i).recoveryAdmission E host trust = .ok ()) ∧
      ∃ membership, ∀ i, (s'.nodes i).recoveryMembership E host trust = .ok (some membership)

end Runs

section Beginning

variable {T : Type → Type} {E : BridgeEnv T} {X C V : Type} {host : Host X C V}
  {trust : Option Trust} {scope : Scope} {d : CommittedDecision} {start : Pair T X C V}
  {file : File T} {policy : Policy} {n n' : Node X C V}

theorem File.decide_settles {E : GrantEnv T} {request : Request} {token : String}
    (fresh : file.read E scope = .ok none) :
    (File.decide E scope request token policy).Settles ⟨file, file⟩ fun _ file' =>
      ∃ ctx grant, request.validate scope.baseline = .ok () ∧
        token.utf8ByteSize ≤ maxGrantToken ∧ E.verify token ctx = .ok grant ∧
        file' = { file with
          decision := some (E.cell ⟨request, token, grant.grantId, both false, none⟩) } := by
  unfold File.decide
  simp only [Tx.settles_lift_bind]
  intro _ valid _ limit _ _
  rw [File.settles_readTx_bind fresh]
  unfold File.decideNew
  simp only [Tx.settles_lift_bind]
  intro ctx _ _ _ grant verified _ _ _ _ _ _
  rw [File.settles_save_commit]
  exact fun _ => ⟨ctx, grant, valid, Replication.ensure_eq_ok.mp limit, verified, rfl⟩

theorem File.fetch_eq_ok {E : GrantEnv T} {r : Record} {request : Request}
    (accepted : file.read E scope = .ok (some r))
    (fetched : ((File.fetch E scope request policy).run file).1 = .ok d) :
    d = File.committed E r := by
  have settles : (File.fetch E scope request policy).Settles ⟨file, file⟩ fun d _ =>
      d = File.committed E r := by
    unfold File.fetch
    rw [Tx.settles_lift_bind]
    intro _ _
    rw [File.settles_readTx_bind accepted]
    simp only [Tx.settles_lift_bind, Recovery.require_eq_ok, Option.some.injEq]
    rintro _ rfl _ _
    rfl
  exact settles.returned fetched

theorem Node.saveSeal_eq_ok {plan : Plan} (saved : n.saveSeal E plan = .ok n') :
    n'.sealed = some plan ∧ n'.store = n.store := by
  simp only [saveSeal, run_ok, readSeal_eq_ok] at saved
  obtain ⟨_, stored, ⟨rfl, _⟩, saved⟩ := saved
  cases present : n.sealed with
  | some old =>
    simp only [present, checked_ok] at saved
    obtain ⟨rfl, rfl⟩ := saved
    exact ⟨present, rfl⟩
  | none =>
    simp only [present, run_ok] at saved
    obtain ⟨_, _, rfl⟩ := saved
    exact ⟨rfl, rfl⟩

theorem Node.saveDelivery_eq_ok {receipt : Delivery} (saved : n.saveDelivery receipt = .ok n') :
    n'.delivery = some receipt ∧ n'.sealed = n.sealed ∧ n'.store = n.store := by
  unfold saveDelivery at saved
  cases present : n.delivery with
  | some old =>
    simp only [present, checked_ok] at saved
    obtain ⟨rfl, rfl⟩ := saved
    exact ⟨present, rfl, rfl⟩
  | none =>
    simp only [present, pure_inj] at saved
    subst saved
    exact ⟨rfl, rfl, rfl⟩

theorem Node.recordRecoveryDecision_eq_ok {member : Id}
    (recorded : n.recordRecoveryDecision E host trust d member = .ok n') :
    n'.sealed = some d.request.plan ∧ n'.delivery = some (deliveryOf d
      ⟨member, n'.store.generation, d.request.plan.baseline.checkpoint⟩) := by
  simp only [recordRecoveryDecision, run_ok, inspect_eq_ok] at recorded
  obtain ⟨_, actual, found, _, sealed, saved, delivered⟩ := recorded
  obtain ⟨seal_, store⟩ := saveSeal_eq_ok saved
  obtain ⟨receipt, kept, store'⟩ := saveDelivery_eq_ok delivered
  refine ⟨kept.trans seal_, ?_⟩
  rw [receipt, store', store, found.found]

theorem Decided.of_decide (sizes : Sizes E) {journal : File T} {token : String}
    (fresh : file.read E.toGrantEnv scope = .ok none)
    (decided : (File.decide E.toGrantEnv scope d.request token policy).run file = (.ok (), journal))
    (fetched : ∃ policy, ((File.fetch E.toGrantEnv scope d.request policy).run journal).1 = .ok d)
    (short : E.bytes (E.encode d.request.plan) ≤ maxSeal) :
    ∃ r, Decided E scope d r journal ∧ d.tokenDigest = E.tokenDigest token ∧ d.grantId ≠ zeroId ∧
      d.request.validate d.request.plan.baseline = .ok () := by
  have settled := (File.decide_settles fresh).returned (congrArg Prod.fst decided)
  rw [decided] at settled
  obtain ⟨ctx, grant, valid, limit, verified, rfl⟩ := settled
  have extending := (Request.validate_eq_ok.mp valid).2.1
  let r : Record := ⟨d.request, token, grant.grantId, both false, none⟩
  have fits : ∀ stage : Stage, E.bytes (E.encode (stage.record r)) ≤ maxDecision := by
    intro stage
    have size : E.bytes (E.encode (stage.record r)) ≤
        E.bytes (E.encode d.request.plan) + token.utf8ByteSize + 2048 :=
      sizes.record (stage.record r) ctx grant verified
    simp only [maxDecision, maxSeal, maxGrantToken] at *
    omega
  obtain ⟨nonempty, granted⟩ := GrantEnv.verify_eq_ok verified
  have sound : ∀ stage : Stage, stage.Proper → (stage.record r).Sound := by
    intro stage proper
    refine ⟨nonempty, limit, granted, fun id stored => ⟨proper id stored, ?_⟩⟩
    cases stage <;> simp_all [Stage.record, Stage.completion, Stage.acknowledgements]
  have bound := (File.read_eq_ok fresh).1
  have first : Stage.recorded.Proper := by simp [Stage.Proper, Stage.completion]
  obtain ⟨policy', fetched⟩ := fetched
  have decision : d = File.committed E.toGrantEnv r :=
    File.fetch_eq_ok (File.read_cell bound ⟨fits .recorded, valid, sound .recorded first⟩) fetched
  refine ⟨r, ⟨decision.symm, rfl, bound, valid, sound, fits⟩, ?_, ?_, ?_⟩
  · rw [decision]
    rfl
  · rw [decision]
    exact granted
  · rw [extending.1]
    exact valid

theorem Sizes.manifest_le (sizes : Sizes E) {m : Manifest} {text : T Manifest}
    (encoded : m.encode E.toEnv = .ok text) : E.bytes (E.encode m.checkpoint) ≤ 8192 := by
  simp only [Manifest.encode, checked_ok] at encoded
  obtain ⟨_, _, _, small, _⟩ := encoded
  exact (sizes.manifest m).trans small

theorem Sizes.active_le (sizes : Sizes E) {checkpoint : Prefix}
    (short : E.bytes (E.encode d.request.plan) ≤ maxSeal)
    (small : E.bytes (E.encode checkpoint) ≤ 8192) (i : Fin 2) :
    E.bytes (E.encode (d.record checkpoint i)) ≤ maxActive := by
  have size : E.bytes (E.encode (d.record checkpoint i)) ≤
      E.bytes (E.encode d.request.plan) + E.bytes (E.encode checkpoint) + 2048 :=
    sizes.active (d.record checkpoint i)
  simp only [maxActive, maxSeal] at *
  omega

theorem Pair.Recorded.shared (h : Pair.Recorded E host trust scope d start) {checkpoint : Prefix}
    {view : V} (current : (start.nodes 0).store.current host.schema (start.nodes 0).identity true =
      .ok (checkpoint, view)) (i : Fin 2) :
    ∃ view, (start.nodes i).store.current host.schema (start.nodes i).identity true =
      .ok (checkpoint, view) := by
  revert i
  rw [Fin.forall_fin_two]
  refine ⟨⟨view, current⟩, ?_⟩
  obtain ⟨_, _, current', digest⟩ := (Node.inspect_eq_ok.mp (h.inspected 0)).current
  obtain ⟨own, view', current'', digest'⟩ := (Node.inspect_eq_ok.mp (h.inspected 1)).current
  obtain ⟨rfl, rfl⟩ := Prod.mk.inj (ok_unique current current')
  have same := h.collisionFree _ _ _ _ current current'' (digest.trans digest'.symm)
  exact ⟨view', same ▸ current''⟩

theorem Pair.Recorded.begun (sizes : Sizes E) (h : Pair.Recorded E host trust scope d start) :
    ∃ checkpoint r, Begun E host trust scope d checkpoint r start := by
  obtain ⟨m, text, view, encoded, base, current⟩ := h.restored
  have rows := fun i => Node.recordRecoveryDecision_eq_ok (h.recorded i).choose_spec
  have short : E.bytes (E.encode d.request.plan) ≤ maxSeal :=
    ((Node.inspect_eq_ok.mp (h.inspected 0)).sealed d.request.plan (rows 0).1).2
  obtain ⟨file, token, policy, fresh, decided, nonzero⟩ := h.decided
  obtain ⟨r, decided, named, granted, valid⟩ := Decided.of_decide sizes fresh decided h.fetched short
  refine ⟨m.checkpoint, r, decided, fun i => ?_⟩
  obtain ⟨sealed, delivered⟩ := rows i
  obtain ⟨view, current⟩ := h.shared current i
  have based : i = 0 → (start.nodes i).store.base = some m.checkpoint := fun zero => zero ▸ base
  have found := (Node.inspect_eq_ok.mp (h.inspected i)).found
  exact {
    role := h.restricted i
    steady := .inl (h.plain i)
    inactive := (h.inactive i).1
    incomplete := (h.inactive i).2
    sealed := sealed
    delivered := by rw [delivered, ← found]
    inspected := h.inspected i
    current := ⟨view, current⟩
    based := based
    anchored := Node.checkAnchor_plain (n := { start.nodes i with role := recoveredRole i })
      (a := d.record m.checkpoint i) (h.plain i) current based
    unlost := h.unlost i
    valid := valid
    token := named ▸ nonzero
    grant := granted
    fits := sizes.active_le short (sizes.manifest_le encoded) i }

end Beginning

section Reached

variable {T : Type → Type} {E : BridgeEnv T} {X C V : Type} {host : Host X C V}
  {trust : Option Trust} {scope : Scope} {d : CommittedDecision} {checkpoint : Prefix} {r : Record}
  {start s : Pair T X C V} {stage : Stage} (b : Begun E host trust scope d checkpoint r start)
include b

theorem Begun.ran (proper : stage.Proper)
    (ran : Pair.Ran E host trust scope d.request (stage.pair E d checkpoint r start) s) :
    ∃ stage' : Stage, stage'.Proper ∧ s = stage'.pair E d checkpoint r start := by
  let Staged (s : Pair T X C V) : Prop :=
    ∃ stage' : Stage, stage'.Proper ∧ s = stage'.pair E d checkpoint r start
  have stops : ∀ stage : Stage, stage.Proper → Staged (stage.pair E d checkpoint r start) :=
    fun stage proper => ⟨stage, proper, rfl⟩
  obtain ⟨policy, permissive, choices, called⟩ := ran
  rcases called with rfl | ⟨id, rfl⟩
  · cases stored : stage.completion with
    | none =>
      have proper' : stage.activateSurvivor.activateCandidate.Proper := by
        cases stage <;> simp_all [Stage.Proper, Stage.completion, Stage.activateSurvivor,
          Stage.activateCandidate]
      have triple : Triple (fun _ => True) Staged _ _ _ (fun _ _ => False) :=
        b.activatePair_triple permissive stored fun _ => stops
      exact triple.final (fun _ hs => hs) (fun _ _ hs => ⟨_, proper', hs⟩) (fun _ _ hs => hs.elim)
        (fun _ => trivial) rfl
    | some id =>
      have triple : Triple (fun _ => True) Staged _ _ _ _ :=
        b.activatePair_refused permissive proper stored
      exact triple.final (fun _ hs => hs) (fun _ _ hs => hs.elim)
        (fun _ _ hs => ⟨stage, proper, hs⟩) (fun _ => trivial) rfl
  · by_cases wrong : id = zeroId ∨ stage.rank < 2 ∨ ∃ previous ∈ stage.completion, previous ≠ id
    · have triple : Triple (fun _ => True) Staged _ _ _ _ :=
        b.completePair_refused permissive proper wrong (stops stage proper)
      exact triple.final (fun _ hs => hs) (fun _ _ hs => hs.elim)
        (fun _ _ hs => ⟨stage, proper, hs⟩) (fun _ => trivial) rfl
    · push Not at wrong
      obtain ⟨nonzero, ready, agreed⟩ := wrong
      have proper' : (Stage.completed id).Proper := by
        intro previous stored
        exact Option.some.inj stored ▸ nonzero
      have triple : Triple (fun _ => True) Staged _ _ _ (fun _ _ => False) :=
        b.completePair_triple permissive proper ready nonzero agreed fun _ => stops
      exact triple.final (fun _ hs => hs) (fun _ _ hs => ⟨_, proper', hs⟩) (fun _ _ hs => hs.elim)
        (fun _ => trivial) rfl

theorem Begun.reached (proper : stage.Proper)
    (reached : Pair.Reaches E host trust scope d.request (stage.pair E d checkpoint r start) s) :
    ∃ stage' : Stage, stage'.Proper ∧ s = stage'.pair E d checkpoint r start := by
  induction reached with
  | refl => exact ⟨stage, proper, rfl⟩
  | tail _ ran ih =>
    obtain ⟨stage', proper', rfl⟩ := ih
    exact b.ran proper' ran

theorem Begun.holdsActive {i : Fin 2} (live : stage.level i ≠ .recorded) :
    (stage.pair E d checkpoint r start).HoldsActive d i := by
  refine ⟨checkpoint, ?_⟩
  exact (Node.readActive_eq_ok.mp ((b.installed i).readActive live)).1

theorem Begun.ordered
    (primary : ((stage.pair E d checkpoint r start).nodes 0).role = .primary) :
    (stage.pair E d checkpoint r start).HoldsActive d 1 := by
  have restricted := (b.installed 0).role
  refine b.holdsActive fun recorded => ?_
  have candidate : stage.level 0 = .recorded := by
    cases stage <;> simp_all [Stage.level, Stage.candidate, Stage.survivor]
  simp only [Stage.pair, candidate, Node.holding, restricted] at primary
  cases primary

/-- An admitted member has its receipt, so the recovery is all but done. -/
theorem Begun.admitted {i : Fin 2}
    (admitted : ((stage.pair E d checkpoint r start).nodes i).recoveryAdmission E host trust =
      .ok ()) :
    ∃ id, stage.level i = .completed id ∧ stage.completion = some id ∧ 6 ≤ stage.rank := by
  have receipt : ∃ id, stage.level i = .completed id := by
    by_contra missing
    push Not at missing
    obtain ⟨e, closed⟩ := (b.installed i).recoveryAdmission_closed missing
    have admitted : ((start.nodes i).holding (d.record checkpoint i) i
      (stage.level i)).recoveryAdmission E host trust = .ok () := admitted
    rw [closed] at admitted
    cases admitted
  obtain ⟨id, level⟩ := receipt
  refine ⟨id, level, ?_⟩
  revert level
  unfold Stage.level
  cases stage <;> split <;>
    simp [Stage.candidate, Stage.survivor, Stage.completion, Stage.rank]

theorem Begun.resume {policy : Policy} (permissive : policy.Permissive scope)
    (proper : stage.Proper) {id : Id} (nonzero : id ≠ zeroId)
    (agreed : ∀ previous ∈ stage.completion, previous = id) :
    Triple (· = false) (fun _ => False) (· = stage.pair E d checkpoint r start)
      (Pair.resume E host trust scope d.request policy id)
      (fun _ s => s = (Stage.completed id).pair E d checkpoint r start) (fun _ _ => False) := by
  have status := File.status_run (b.read proper)
  unfold Pair.resume
  refine Triple.known (Begun.check_triple (congrArg Prod.fst status)) ?_
  cases stored : stage.completion with
  | none =>
    have undecided : (stage.record r).completion.isNone := by
      simp [Stage.record, stored]
    have later : stage.activateSurvivor.activateCandidate.Proper ∧
        2 ≤ stage.activateSurvivor.activateCandidate.rank ∧
        stage.activateSurvivor.activateCandidate.completion = none := by
      cases stage <;> simp_all [Stage.Proper, Stage.completion, Stage.activateSurvivor,
        Stage.activateCandidate, Stage.rank]
    rw [if_pos undecided]
    refine Triple.bind (b.activatePair_triple permissive stored fun stopped => by cases stopped)
      fun _ => ?_
    refine b.completePair_triple permissive later.1 later.2.1 nonzero ?_ fun stopped => by cases stopped
    rw [later.2.2]
    simp
  | some previous =>
    have decided : (stage.record r).completion.isNone = false := by
      simp [Stage.record, stored]
    have ready : 2 ≤ stage.rank := by
      cases stage <;> simp_all [Stage.completion, Stage.rank]
    have skip : Triple (· = false) (fun _ => False) (· = stage.pair E d checkpoint r start)
        (pure () : Script (Pair T X C V) Bool Fault Unit)
        (fun _ s => s = stage.pair E d checkpoint r start) (fun _ _ => False) :=
      Triple.pure () fun _ hs => hs
    rw [decided]
    refine Triple.bind skip fun _ => ?_
    exact b.completePair_triple permissive proper ready nonzero agreed fun stopped => by cases stopped

theorem Begun.converges (proper : stage.Proper)
    (lossless : ∀ i, host.loss trust (start.nodes i).rest = .ok none) :
    (stage.pair E d checkpoint r start).Converges E host trust scope d where
  ordered := b.ordered
  admitted i _ admitted := by
    obtain ⟨id, level, stored, late⟩ := b.admitted admitted
    refine ⟨fun j => b.holdsActive (Stage.live (by omega) j), stage.record r, id,
      Node.completionOf (d.record checkpoint i) d.request id, b.read proper, b.request_eq, ?_, stored,
      ?_, rfl⟩
    · cases stage <;> simp_all [Stage.record, Stage.acknowledgements, Stage.rank]
    · simp only [Stage.pair, level]
      rfl
  resumes policy id permissive nonzero agreed := by
    have agreed : ∀ previous ∈ stage.completion, previous = id := fun previous stored =>
      (agreed _ _ (b.read proper) stored).symm
    have triple := b.resume permissive proper nonzero agreed
    obtain ⟨_, value, final⟩ := triple.returns (fun _ hs => hs) (fun _ _ hs => hs)
      (fun _ => rfl) 0 rfl
    have done : ∀ i, (Stage.completed id).level i = .completed id := by
      simp [Stage.level, Stage.candidate, Stage.survivor]
    refine ⟨_, value, final, fun i => ?_, (d.record checkpoint 0).membership E, fun i => ?_⟩
    · simp only [Stage.pair, done]
      exact (b.installed i).recoveryAdmission nonzero
    · simp only [Stage.pair, done]
      exact (b.installed i).recoveryMembership nonzero (lossless i)

end Reached

/-- Interrupted activation and completion converge: whatever calls of a recovery were made
and wherever they stopped, the candidate is primary only over an active survivor, a member
is admitted only once everything is recorded, and the recovery can be finished. -/
theorem interrupted_recovery_converges {T : Type → Type} {E : BridgeEnv T} {X C V : Type}
    {host : Host X C V} {trust : Option Trust} {scope : Scope} {d : CommittedDecision}
    {start s : Pair T X C V} (sizes : Sizes E)
    (recorded : Pair.Recorded E host trust scope d start)
    (lossless : ∀ i, host.loss trust (start.nodes i).rest = .ok none)
    (reached : Pair.Reaches E host trust scope d.request start s) :
    s.Converges E host trust scope d := by
  obtain ⟨checkpoint, r, begun⟩ := recorded.begun sizes
  rw [begun.start_eq] at reached
  obtain ⟨stage, proper, rfl⟩ := begun.reached (by simp [Stage.Proper, Stage.completion]) reached
  exact begun.converges proper lossless

namespace Sample

open Recovery.Sample (mark)
open Maintenance.Sample

def bridge : BridgeEnv fun α => α where
  toGrantEnv := env
  identityText value := if value = identity then "scope" else ""
  identityOf text := if text = "scope" then some identity else none

def typedHost : Host Unit Unit Unit where
  schema := schema
  initial := zeros
  verifyLegacy _ _ _ := .ok ()
  terminated _ _ := .ok ()
  verifyCapacity _ _ := .ok ()
  verifyContract _ _ := .ok ()
  loss _ _ := .ok none
  lossAdmission _ := .ok ()

/-- An empty node on the given base. -/
def emptyNode (base : Option Prefix) (generation : Id) : Node Unit Unit Unit where
  identity := identity
  role := .secondary
  runtime := 1
  initial := zeros
  store := ⟨(), [], [], base, none, generation, zeroId⟩
  segments := ⟨0, none, none, none, none⟩
  restoring := false
  checkpointVersion := 1
  sealed := none
  delivery := none
  active := none
  completion := none
  cycles := none
  rest := ()

def decision : CommittedDecision := ⟨request, mark 5, mark 1⟩

/-- The node once it has recorded the decision. -/
def delivered (n : Node Unit Unit Unit) (i : Fin 2) : Node Unit Unit Unit :=
  { n with
    sealed := some plan
    checkpointVersion := 2
    delivery := some (Node.deliveryOf decision (request.prepared i)) }

/-- A pair that has recorded the decision; the candidate stands on `base`. -/
def recordedPair (base : Option Prefix) : Pair (fun α => α) Unit Unit Unit where
  nodes i := delivered (if i = 0 then emptyNode base (mark 3) else emptyNode none (mark 2)) i
  journal := ((File.decide env scope request token policy).run created).2

theorem sizes : Sizes bridge where
  active _ := show 1 ≤ 1 + 1 + 2048 by decide
  manifest _ := le_refl 1
  record _ _ _ _ := (Nat.le_add_right 1 _).trans (Nat.le_add_right _ _)

theorem current_stateAt : ∀ i, (((recordedPair (some (stateAt 0))).nodes i).store.current schema identity
    true) = .ok (stateAt 0, ()) := by
  decide +kernel

theorem recordedPair_recorded :
    Pair.Recorded bridge typedHost none scope decision (recordedPair (some (stateAt 0))) where
  decided := ⟨created, token, policy, rfl, rfl, by decide⟩
  fetched := ⟨policy, rfl⟩
  recorded := by
    refine Fin.forall_fin_two.mpr ⟨⟨emptyNode (some (stateAt 0)) (mark 3), ?_⟩,
      ⟨emptyNode none (mark 2), ?_⟩⟩ <;> decide +kernel
  inspected := by decide +kernel
  restricted := by decide
  inactive := by decide
  plain := by decide
  unlost _ := rfl
  restored := ⟨manifest 0, manifest 0, (), by decide +kernel, rfl, current_stateAt 0⟩
  collisionFree a b va vb first second _ := by
    obtain ⟨rfl, _⟩ := Prod.mk.inj (ok_unique (current_stateAt 0) first)
    obtain ⟨rfl, _⟩ := Prod.mk.inj (ok_unique (current_stateAt 1) second)
    rfl

/-- The process stopped right after the survivor was activated. -/
theorem interrupted_recovery_converges_halfway :
    Pair.Recorded bridge typedHost none scope decision (recordedPair (some (stateAt 0))) ∧
      Pair.Converges bridge typedHost none scope decision
        (Pair.activatePair bridge typedHost none scope request policy (fun _ => true) 0
          (recordedPair (some (stateAt 0)))).final :=
  ⟨recordedPair_recorded, interrupted_recovery_converges sizes recordedPair_recorded
    (fun _ => rfl) (.single ⟨policy, ⟨fun _ => rfl, fun _ _ => rfl⟩, fun _ => true, .inl rfl⟩)⟩

/-- The decision is recorded by a candidate that no snapshot was restored into: its peer is
activated, and every later attempt is refused. -/
theorem unrestored_candidate_refused :
    (File.decide env scope request token policy).run created = (.ok (), (recordedPair none).journal) ∧
      (∀ i, Node.recordRecoveryDecision bridge typedHost none
        (if i = 0 then emptyNode none (mark 3) else emptyNode none (mark 2)) decision
        (request.prepared i).member = .ok ((recordedPair none).nodes i)) ∧
      (∀ i, ((recordedPair none).nodes i).inspect bridge typedHost none plan
        (request.prepared i).member = .ok (request.prepared i)) ∧
      policy.Permissive scope ∧
      (Pair.resume bridge typedHost none scope request policy (mark 7) (fun _ => false) 0
        (recordedPair none)).value? =
          some (.error (.message "candidate requires snapshot base")) := by
  refine ⟨rfl, ?_, ?_, ⟨fun _ => rfl, fun _ _ => rfl⟩, ?_⟩
  · decide +kernel
  · decide +kernel
  · decide +kernel

end Sample

end TerrapiVault.Replacement
