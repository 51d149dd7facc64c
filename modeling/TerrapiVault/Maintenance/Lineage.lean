import TerrapiVault.Maintenance.Certified
import TerrapiVault.Recovery.Revisions

/-! Two lineage rules for one history. The journal counts aborted revisions, a node
counts its certificates, so the two agree on the next revision only as long as no abort
was recorded after the latest certificate. -/
namespace TerrapiVault.Maintenance

open Replication
open Recovery

variable {T : Type → Type} {E : Env T} {trust : Trust} {events : List Event} {p : Position}
  {j j' : Journal T}

theorem ensure_congr {a b : Prop} [Decidable a] [Decidable b] (same : a ↔ b) (text : String) :
    ensure a text = ensure b text := by
  by_cases holds : a
  · rw [Replication.ensure_of holds, Replication.ensure_of (same.mp holds)]
  · rw [Replication.ensure_not holds, Replication.ensure_not fun b => holds (same.mpr b)]

theorem followsCertificate_eq {old q : Request} (small : old.revision < 2 ^ 63)
    (authority : q.authorityId = old.authorityId)
    (rest : q.install = old.install ∧ q.region = old.region ∧ q.scope = old.scope ∧
      q.schema = old.schema ∧ q.membership = old.membership ∧ q.sourceAnchor = old.sourceAnchor ∧
      ∀ i, (q.participants i).member = (old.participants i).member ∧
        (q.participants i).generation = (old.participants i).generation ∧
        (q.participants i).oldBase = some (old.participants i).target) :
    followsCertificate old q =
      ensure (q.revision = old.revision + 1) "certificate lineage mismatch" := by
  have room : old.revision + 1 < 2 ^ 64 := by omega
  have next : checkedSucc old.revision "certificate revision overflow" = .ok (old.revision + 1) :=
    checkedSucc_eq_ok.mpr ⟨room, rfl⟩
  rw [followsCertificate, Replication.ensure_of authority, ok_bind, next, ok_bind]
  exact ensure_congr (and_iff_left rest) _

/-- The counter stands at the effective head exactly when no abort came after it. -/
theorem lastRevision_eq_iff {s : JournalScope} {h : Record} (trail : E.trail s events = .ok p)
    (effective : p.effective = some h) : p.lastRevision s = h.request.revision ↔
      ∀ a ∈ abortsOf events, a.abort.abortedRevision < h.request.revision := by
  cases events using List.reverseRecOn with
  | nil =>
    obtain rfl : Position.start = p := Except.ok.inj trail
    cases effective
  | append_singleton front last =>
    have below := trail_below trail
    obtain ⟨q, before, stepped⟩ := trail_concat.mp trail
    obtain ⟨_, consumed, _, _, added, _⟩ := step_eq_ok stepped
    rw [Position.lastRevision, consumed, Option.getD_some]
    have earlier : ∀ a ∈ abortsOf front, a.abort.abortedRevision < last.revision := by
      intro a mem
      obtain ⟨d, inside, found⟩ := List.mem_filterMap.mp mem
      rw [(trail_coherent before d inside).abort_revision found]
      exact below d inside
    cases named : last.abort? with
    | some a =>
      -- the counter moved with the abort, and the head stayed behind it
      have revision := (step_coherent stepped).abort_revision named
      have past : h.request.revision < last.revision := by
        have live : h ∈ recordsOf front := by
          refine liveOf_subset_recordsOf (effective_mem_liveOf before ?_)
          cases last with
          | decided r => cases named
          | cancelled r b => exact added.symm.trans effective
          | skipped b => exact added.symm.trans effective
        obtain ⟨d, inside, found⟩ := List.mem_filterMap.mp live
        rw [Event.record_revision found]
        exact below d inside
      refine iff_of_false past.ne' fun all => ?_
      have bound := all a (by simp [abortsOf_singleton, named])
      omega
    | none =>
      obtain ⟨r, rfl⟩ : ∃ r, last = .decided r := by
        cases last with
        | decided r => exact ⟨r, rfl⟩
        | cancelled r b => cases named
        | skipped b => cases named
      obtain rfl : h = r := Option.mem_unique effective added
      refine iff_of_true rfl fun a mem => ?_
      exact earlier a (by simpa [abortsOf_singleton, Event.abort?] using mem)

theorem decide_follows {request : Request} {token : String} {now : ℕ} {policy : Policy}
    {c : CommittedTransition} {h : Record} (layout : j.Layout E events p)
    (effective : p.effective = some h) (new : request ≠ h.request)
    (accepted : j.decide E request token now trust policy = .ok (j', c)) :
    followsCertificate h.request request =
      ensure (p.lastRevision j.scope = h.request.revision) "certificate lineage mismatch" := by
  obtain ⟨admits, _, ⟨_, r, found, same, _⟩ | decided⟩ := Journal.decide_effect layout accepted
  · obtain rfl : r = h := Option.mem_unique found effective
    exact absurd same.symm new
  obtain ⟨_, _, _, _, rfl, p', written⟩ := Journal.decideNew_effect layout decided
  obtain ⟨q, before, stepped⟩ := trail_concat.mp written.trail
  obtain rfl : q = p := ok_unique before layout.trail
  have chained := ((step_eq_ok stepped).2.2.2.1 _ rfl).2
  have head : h ∈ recordsOf events :=
    liveOf_subset_recordsOf (effective_mem_liveOf layout.trail effective)
  obtain ⟨row, _, loaded⟩ := forall₂_mem_right admits.records head
  obtain ⟨_, _, _, v, verified⟩ := loadRecord_eq_ok.mp loaded
  have valid := Env.verifyHistorical_valid verified
  have own := trail_binds layout.trail head
  have consumed : q.consumed = some (q.lastRevision j.scope) := by
    have last := trail_consumed layout.trail
    cases found : events.getLast? with
    | none =>
      rw [List.getLast?_eq_none_iff.mp found] at head
      cases head
    | some e => rw [Position.lastRevision, last, found]; rfl
  have expected := JournalScope.chain_expected chained
  rw [consumed, JournalScope.expected, checkedSucc_eq_ok] at expected
  have linked := chain_continues chained effective
  simp only [JournalScope.chain, checked_ok] at chained
  obtain ⟨binds, _⟩ := chained
  rw [show request = (Record.opened request token).request from rfl,
    followsCertificate_eq valid.revision_lt (binds.2.2.2.2.2.2.trans own.2.2.2.2.2.2.symm)]
  · have shift : request.revision = h.request.revision + 1 ↔
        q.lastRevision j.scope = h.request.revision := by
      have next : q.lastRevision j.scope + 1 = request.revision := expected.2
      omega
    exact ensure_congr shift _
  · refine ⟨binds.1.trans own.1.symm, binds.2.1.trans own.2.1.symm,
      binds.2.2.1.trans own.2.2.1.symm, binds.2.2.2.1.trans own.2.2.2.1.symm,
      binds.2.2.2.2.1.trans own.2.2.2.2.1.symm, binds.2.2.2.2.2.1.trans own.2.2.2.2.2.1.symm, ?_⟩
    intro i
    obtain ⟨base, member, generation⟩ := linked.2 i
    refine ⟨member, generation, ?_⟩
    rw [valid.target_eq i 0]
    exact base

/-- A request that the journal accepts next passes the node's lineage rule exactly when no
abort was recorded after the head whose certificate the node holds. -/
theorem next_certificate_follows {history : History} (read : j.read E trust = .ok history)
    {h : Record} (head : history.head = some h) {request : Request} {token : String} {now : ℕ}
    {policy : Policy} {c : CommittedTransition}
    (accepted : j.decide E request token now trust policy = .ok (j', c))
    (new : request ≠ h.request) {previous record : CertificateRecord}
    (stored : previous.request = h.request) (own : record.request = request)
    {identity : Identity} {role : Role} (bound : validateRecord E record identity role none = .ok ()) :
    (validateRecord E record identity role (some previous) = .ok () ↔
      ∀ a ∈ j.abortRecords E, a.abort.abortedRevision < h.request.revision) ∧
    ∀ a ∈ j.abortRecords E, h.request.revision < a.abort.abortedRevision →
      validateRecord E record identity role (some previous) =
        .error (.message "certificate lineage mismatch") := by
  obtain ⟨events, p, _, layout, rfl⟩ := Journal.read_eq_ok.mp read
  have binds : bindsPlan E record identity role = .ok () :=
    (unit_bind_eq_ok.mp bound).1
  have rule : validateRecord E record identity role (some previous) =
      ensure (p.lastRevision j.scope = h.request.revision) "certificate lineage mismatch" := by
    rw [validateRecord, binds, ok_bind, ← decide_follows layout head new accepted, own,
      stored]
  have counted := lastRevision_eq_iff layout.trail head
  rw [rule, layout.abortRecords_eq]
  refine ⟨ensure_eq_ok.trans counted, fun a mem past => ?_⟩
  refine Replication.ensure_not fun same => ?_
  exact absurd (counted.mp same a mem) past.le.not_gt

/-! A recovered pair in the environment that accepts every signature. Its `n`-th
request has revision `n` and compacts to sequence 1, or to 2 from the second on. -/
namespace Sample

open Recovery.Sample

def identity : Identity := ⟨"cluster", "tenant", 1, ⟨"stock", 1⟩⟩

def zeros : String := String.ofList (List.replicate 64 '0')

def contract : Contract := ⟨1, ⟨"stock", 1⟩, 1, zeros⟩

/-- One relation without columns, whose digests are all alike. -/
def schema : Replication.Schema Unit Unit SchemaId String where
  initial := ()
  capture _ _ := .ok ((), [])
  replay _ _ := .ok ()
  requestFingerprint _ := zeros
  fingerprintVersion := 1
  hash _ := zeros
  length _ := 64
  changeSize _ := 0
  schemaSize _ := 0
  fingerprintVersion_pos := Nat.one_pos
  length_hash _ := rfl
  length_requestFingerprint _ := rfl

def stateAt (n : ℕ) : Prefix := ⟨1, identity, n, zeros, zeros, zeros⟩

def manifest (n : ℕ) : Manifest :=
  ⟨1, contract, stateAt n, ⟨1, scope identity, zeros, zeros, 0, 0, zeros⟩, 1, n⟩

/-- The sequence the `n`-th request compacts to. -/
def goal (n : ℕ) : ℕ := min n 2

/-- The base below it: the candidate starts on the recovery anchor. -/
def ground (n : ℕ) : Role → Option ℕ
  | .primary => some (goal n - 1)
  | .secondary => if n ≤ 1 then none else some 1

def head (n : ℕ) (role : Role) : Head :=
  ⟨(ground n role).map stateAt, identity, zeroId, zeroId, goal n⟩

def compactionPlan (n : ℕ) (role : Role) : CompactionPlan where
  format := 1
  role := role
  contract := contract
  membership := some (mark 1)
  recoveryAnchor := some (stateAt 0)
  head := head n role
  checkpoint := stateAt (goal n)
  coveredJournalBytes := 0
  coveredJournalEntries := 0
  unresolvedTail := false
  publication := some (manifest (goal n))
  retainedReceipts := goal n

def plan (n : ℕ) : PairPlan := ⟨mark 1, compactionPlan n .primary, compactionPlan n .secondary⟩

def participant (n : ℕ) (i : Fin 2) : Participant := { Recovery.Sample.participant n i with
  oldBase := (ground n (if i = 0 then .primary else .secondary)).map cut
  target := cut (goal n) }

def request (n : ℕ) : Request := { Recovery.Sample.request n with participants := participant n }

/-- Even numbers say that request `n / 2` was decided, odd ones that it was not. -/
def cancellation (n : ℕ) : MaintenanceAbort := { Recovery.Sample.cancellation ((n + 1) / 2) with
  id := mark n
  abortedRequestId := mark ((n + 1) / 2)
  decided := n % 2 = 0 }

def body : (d : Document) → ℕ → d.Body
  | .transition => request
  | .abort => cancellation
  | d => Recovery.Sample.body d

def env : Env fun α => α := Recovery.Sample.carrying body

def certificate (n : ℕ) : CertificateRecord := ⟨1, plan n, request n, token .transition n⟩

example : validateRecord env (certificate 1) identity .primary none = .ok () ∧
    validateRecord env (certificate 2) identity .secondary (some (certificate 1)) = .ok () := by
  decide +kernel

def decided (n : ℕ) : JournalCall := .decide (request n) (token .transition n) 0 policy

def committed (n : ℕ) : CommittedTransition :=
  ⟨request n, token .transition n, mark (n + 4), mark 1, both false, none⟩

/-- The calls of the first compaction, to its completion. -/
def firstCycle : List JournalCall :=
  [decided 1, .acknowledge (committed 1) (participant 1 0) policy,
    .acknowledge (committed 1) (participant 1 1) policy, .complete (committed 1) (mark 1) policy]

def aborted (n : ℕ) : JournalCall := .abort (cancellation n) (token .abort n) 0 policy

/-- The record they leave. -/
def completed : Record where
  request := request 1
  token := token .transition 1
  acknowledgements := Function.update (Function.update (both false) 0 true) 1 true
  completion := some (mark 1)

def play (calls : List JournalCall) : Result (Journal fun α => α) :=
  calls.foldlM (fun j (c : JournalCall) => c.run env trusted j) created

def after (calls : List JournalCall) : Journal fun α => α := (play calls).toOption.getD created

theorem next_certificate_follows_second :
    (validateRecord env (certificate 2) identity .primary (some (certificate 1)) = .ok () ↔
      ∀ a ∈ (after firstCycle).abortRecords env, a.abort.abortedRevision < 1) ∧
    ∀ a ∈ (after firstCycle).abortRecords env, 1 < a.abort.abortedRevision →
      validateRecord env (certificate 2) identity .primary (some (certificate 1)) =
        .error (.message "certificate lineage mismatch") := by
  have read := Recovery.Sample.ok_get (r := (after firstCycle).read env trusted)
    (by decide +kernel)
  have accepted := Recovery.Sample.ok_get
    (r := (after firstCycle).decide env (request 2) (token .transition 2) 0 trusted policy)
    (by decide +kernel)
  exact next_certificate_follows read (h := completed) (by decide +kernel) accepted
    (by decide +kernel) rfl rfl (by decide +kernel)

/-- Request 2 is aborted before it was decided. The journal then decides request 3, which
continues the completed request 1, and a node that holds the certificate of 1 refuses it. -/
theorem certificate_after_abort :
    (play (firstCycle ++ [aborted 3, decided 3])).toOption.isSome ∧
    ((after (firstCycle ++ [aborted 3])).read env trusted).toOption.bind (·.head) =
      some completed ∧
    validateRecord env (certificate 3) identity .primary none = .ok () ∧
    validateRecord env (certificate 3) identity .primary (some (certificate 1)) =
      .error (.message "certificate lineage mismatch") := by
  refine ⟨?_, ?_, ?_, ?_⟩ <;> decide +kernel

end Sample

end TerrapiVault.Maintenance
