import TerrapiVault.Maintenance.Growth
import TerrapiVault.Maintenance.Restoring
import TerrapiVault.Replication.Pruned

/-! Whether a pair that `prepare_pair` has closed can be applied. The preflight and the
later calls check overlapping conditions; what only the later calls check decides. -/
namespace TerrapiVault.Maintenance

open Replication
open Recovery

variable {T : Type → Type} {E : Env T} {F C V : Type} {host : Host F C V} {trust : Trust}

/-- The checks of a store look at its rows and receipts only. -/
structure Host.Steady (host : Host F C V) : Prop where
  schema : ∀ files (a b : Tables C V), a.data = b.data → a.receipts = b.receipts →
    host.verifySchema files a = host.verifySchema files b
  capacity : ∀ files (a b : Tables C V), a.data = b.data → a.receipts = b.receipts →
    host.verifyCapacity files a = host.verifyCapacity files b
  accounting : ∀ files (a b : Tables C V), a.data = b.data →
    a.receipts = b.receipts → host.verifyAccounting files a = host.verifyAccounting files b

namespace Node

/-- An ordinary node of a recovered pair, after any number of certified cycles: it stands
on its recovery anchor until the first of them, and each has left one certificate and the
plan of it in the history. -/
structure Recovered (host : Host F C V) (n : Node F C V) : Prop where
  owned : n.Owned host
  ordinary : n.marker = none
  accounted : host.verifyAccounting n.files n.store = .ok ()
  generation : ∀ a, host.active n.files n.identity n.role = .ok (some a) →
    a.generation = n.store.generation
  anchored : ∀ a, host.active n.files n.identity n.role = .ok (some a) →
    n.segments.certificates = none →
      n.store.calculate host.schema n.identity true (some a.checkpoint.sequence) =
        .ok a.checkpoint ∧ (n.role = .primary → n.store.base = some a.checkpoint)
  ascending : (n.segments.certificates.getD []).Pairwise (·.1 < ·.1)
  history : ∀ rows, n.segments.certificates = some rows → n.segments.history = some (planRows rows)

/-- What `r` puts beside a pending row. -/
def mark (E : Env T) (n : Node F C V) (r : Prepared) : Marker :=
  ⟨1, n.identity, n.role, n.runtime, E.digest r.request, E.digest r.plan⟩

end Node

/-- The certificate a pending row becomes. -/
def Prepared.record (r : Prepared) : CertificateRecord := ⟨1, r.plan, r.request, r.token⟩

/-- A row on its way to the cut; `digest` is that of its token. -/
structure Prepared.Forward (r : Prepared) (digest : Id) : Prop where
  format : r.format = 1
  abort : r.abort = none
  completion : r.completion = none
  phase : r.phase = .prepared ∧ r.decision = none ∨
    (r.phase = .decided ∨ r.phase = .applied) ∧ r.decision = some digest

namespace Node

/-- The tables the first or another certificate leads to. -/
def extended (n : Node F C V) (record : CertificateRecord) : Segments :=
  grown (n.segments.root.getD (record.plan.localPlan n.role).head.base)
    (n.segments.certificates.getD []) (record.plan.localPlan n.role).checkpoint.sequence record
    n.segments.completion

/-- The node once `r` is its pending row and its log is cut. -/
def cut (E : Env T) (n : Node F C V) (r : Prepared) (random : Bytes32) : Node F C V :=
  (n.prepared E r).cutTo (n.extended r.record) (r.plan.localPlan n.role).checkpoint r random

/-- What the preflight has seen of a node it accepts for a record. -/
structure Preflighted (E : Env T) (host : Host F C V) (trust : Trust) (n : Node F C V)
    (record : CertificateRecord) : Prop where
  initial : n.initial = host.initial
  runtime : n.runtime = 3 ∨ n.runtime = 4
  format : n.historyFormat host n.runtime = .ok (n.runtime - 2)
  history : host.verifyHistory n.files (n.runtime - 2) = .ok ()
  schema : host.verifySchema n.files n.store = .ok ()
  formats : host.verifyFormats n.files = .ok ()
  capacity : host.verifyCapacity n.files n.store = .ok ()
  certified : record.plan.validateCertified E = .ok ()
  follows : validateRecord E record n.identity n.role n.segments.latest = .ok ()
  latest : ∀ c ∈ n.segments.latest, E.bytes (E.encode c) ≤ maxCertificateBytes
  current : ∃ view, n.store.current host.schema n.identity true =
    .ok ((record.plan.localPlan n.role).checkpoint, view)
  head : n.store.head n.identity = .ok (record.plan.localPlan n.role).head
  publication : ∃ m, n.publication = some m ∧
    (record.plan.localPlan n.role).publication = some m ∧ n.verifyPublicationIn E host m = .ok ()
  unpinned : n.requireUnpinned = .ok ()
  active : ∃ a, host.active n.files n.identity n.role = .ok (some a) ∧
    (record.plan.localPlan n.role).membership = some a.membership ∧
    (record.plan.localPlan n.role).recoveryAnchor = some a.checkpoint
  token : record.token.utf8ByteSize ≤ maxToken
  signed : ∃ v, E.verifyHistorical record.token trust record.request = .ok v
  version : n.segments.version = if n.segments.certificates.isSome then 3 else 1
  bare : n.segments.certificates = none → n.segments.root = none ∧ n.segments.history = none

/-- The request names the member and generation the node lives under. -/
def Bound (host : Host F C V) (n : Node F C V) (request : Request) : Prop :=
  ∃ a, host.active n.files n.identity n.role = .ok (some a) ∧
    (request.participants (side n.role)).member = a.member ∧
    (request.participants (side n.role)).generation = n.store.generation

/-- Earlier certificates hold under `trust`, and the authority still shows the last one
completed. -/
def Vouched (E : Env T) (host : Host F C V) (trust : Trust) (authority : Option CertifiedAuthority)
    (n : Node F C V) : Prop :=
  n.segments.certificates.isSome →
    n.segments.verifyCertified E n.store.base n.identity n.role (some trust)
        (host.terminated n.files) = .ok () ∧
      n.segments.verifyLiveCertified E authority true = .ok ()

section Checks

variable {n : Node F C V} {r : Prepared} {authority : Option CertifiedAuthority}
  {exact : Option Prepared}

theorem checkProgress_forward {m : Node F C V} {digest : Id} (row : m.progress = some r)
    (forward : r.Forward digest) (same : ∀ e ∈ exact, r = e) {r' : Prepared} :
    m.checkProgress E r.request exact = .ok r' ↔
      E.bytes (E.encode r) ≤ 256 * 1024 ∧ r = r' := by
  have notAborting : r.phase ≠ .aborting := by
    rcases forward.phase with ⟨phase, _⟩ | ⟨phase | phase, _⟩ <;> rw [phase] <;> decide
  simp only [checkProgress, row, checked_ok, queried_eq_ok, Option.some.injEq, exists_eq_left',
    forward.format, forward.abort]
  constructor
  · rintro ⟨fits, _, _, _, _, rfl⟩
    exact ⟨fits, rfl⟩
  · rintro ⟨fits, rfl⟩
    exact ⟨fits, same, ⟨.inl trivial, trivial⟩, .inr ⟨trivial, notAborting⟩,
      .inl notAborting, rfl⟩

theorem checkEvidence_forward {v : Verified}
    (signed : E.verifyHistorical r.token trust r.request = .ok v)
    (forward : r.Forward v.tokenDigest) : r.checkEvidence E trust = .ok v := by
  have evident : r.evident v.tokenDigest = true := by
    rcases forward.phase with ⟨phase, decision⟩ | ⟨phase | phase, decision⟩ <;>
      simp [Prepared.evident, phase, decision, forward.completion]
  simp [Prepared.checkEvidence, signed, evident]

theorem checkMarker_marked {m : Node F C V} (marked : m.marker = some (n.mark E r))
    (owner : m.identity = n.identity ∧ m.role = n.role) (runtime : m.runtime = 5)
    (initial : m.initial = host.initial) (unready : m.store.readiness = none)
    (previous : n.runtime = 3 ∨ n.runtime = 4) {marker : Marker} :
    m.checkMarker E host ⟨n.identity, n.role, authority⟩ = .ok marker ↔
      E.bytes (E.encode (n.mark E r)) ≤ 64 * 1024 ∧ n.mark E r = marker := by
  simp only [checkMarker, marked, runtime, initial, unready, checked_ok, queried_eq_ok,
    Option.some.injEq, exists_eq_left']
  constructor
  · rintro ⟨fits, _, _, _, _, rfl⟩
    exact ⟨fits, rfl⟩
  · rintro ⟨fits, rfl⟩
    exact ⟨fits, ⟨rfl, rfl, rfl, previous⟩, ⟨trivial, trivial⟩, trivial, owner, rfl⟩

theorem Preflighted.kept (pre : n.Preflighted E host trust r.record) (steady : host.Steady)
    (recovered : n.Recovered host) (st : Tables C V) (data : st.data = n.store.data)
    (receipts : st.receipts = n.store.receipts) :
    host.verifySchema n.files st = .ok () ∧ host.verifyCapacity n.files st = .ok () ∧
      host.verifyAccounting n.files st = .ok () :=
  ⟨(steady.schema _ _ _ data receipts).trans pre.schema,
    (steady.capacity _ _ _ data receipts).trans pre.capacity,
    (steady.accounting _ _ _ data receipts).trans recovered.accounted⟩

theorem checkHistory_prepared (steady : host.Steady) (recovered : n.Recovered host)
    (pre : n.Preflighted E host trust r.record) (early : r.phase.pruned = false) :
    (n.prepared E r).checkHistory E host trust (n.mark E r) r = .ok () := by
  obtain ⟨schema, capacity, accounting⟩ :=
    pre.kept steady recovered (n.prepared E r).store rfl rfl
  simp only [checkHistory, checkLineage, early, Bool.false_eq_true, if_false, bind_eq_ok]
  exact ⟨(), schema, (), ⟨_, pre.format, pre.history⟩, (), pre.formats, (), capacity, accounting⟩

section

variable (pre : n.Preflighted E host trust r.record)
include pre

theorem Preflighted.checkPlan {m : Node F C V} (owner : m.identity = n.identity ∧ m.role = n.role)
    (files : m.files = n.files) (publication : m.publication = n.publication) {view : V}
    (previous : m.previousCertificate E r = .ok n.segments.latest)
    (current : m.store.current host.schema n.identity true =
      .ok ((r.plan.localPlan n.role).checkpoint, view))
    (base : m.store.base = if r.phase.pruned then some (r.plan.localPlan n.role).checkpoint
      else (r.plan.localPlan n.role).head.base) :
    m.checkPlan E host (n.mark E r) r = .ok (r.plan.localPlan n.role).checkpoint := by
  obtain ⟨identity, role⟩ := owner
  obtain ⟨manifest, stored, planned, verified⟩ := pre.publication
  have named : (r.plan.localPlan n.role).checkpoint.identity = n.identity :=
    Replication.Store.current_identity current
  have encoded : ∃ text, manifest.encode E = .ok text := by
    simp only [verifyPublicationIn, validateManifest, run_ok] at verified
    obtain ⟨⟨text, encoded, _⟩, _⟩ := verified
    exact ⟨text, encoded⟩
  obtain ⟨text, encoded⟩ := encoded
  have published : m.verifyPublicationIn E host manifest = .ok () := by
    simpa only [verifyPublicationIn, validateManifest, identity, files, publication] using verified
  have stored : m.publication = some manifest := publication.trans stored
  simp only [Node.checkPlan, identity, role, stored, previous, current, checked_ok, queried_eq_ok,
    require_eq_ok]
  exact ⟨⟨rfl, rfl⟩, pre.token, pre.certified, _, rfl, pre.follows, named, _,
    rfl, rfl, base, _, rfl, text, encoded, manifest, planned, rfl, published, rfl⟩

theorem Preflighted.base : (r.plan.localPlan n.role).head.base = n.store.base := by
  have head := pre.head
  simp only [Store.head, run_ok] at head
  obtain ⟨_, _, _, _, _, same⟩ := head
  exact (congrArg Replication.JournalHead.base same).symm

theorem checkPlan_prepared (early : r.phase.pruned = false) :
    (n.prepared E r).checkPlan E host (n.mark E r) r =
      .ok (r.plan.localPlan n.role).checkpoint := by
  obtain ⟨view, current⟩ := pre.current
  have previous : (n.prepared E r).previousCertificate E r = .ok n.segments.latest := by
    simp only [previousCertificate, early, Bool.false_eq_true, if_false, checked_ok]
    exact ⟨pre.latest, rfl⟩
  refine pre.checkPlan ⟨rfl, rfl⟩ rfl rfl previous
    ((Replication.Store.current_unready ..).trans current) ?_
  rw [early]
  exact pre.base.symm

theorem Preflighted.structural : r.plan.validateStructural E = .ok () := by
  have certified := pre.certified
  simp only [PairPlan.validateCertified, unit_bind_eq_ok] at certified
  exact certified.1

theorem Preflighted.membership :
    some r.request.membership = (r.plan.localPlan n.role).membership := by
  have follows := pre.follows
  simp only [validateRecord, bindsPlan, checked_ok, require_eq_ok] at follows
  obtain ⟨⟨_, _, _, _, _, membership, found, _, _, _, _, same⟩, _⟩ := follows
  exact (congrArg some same.2.2.2.2.1).trans found.symm

end

theorem checkAnchor_prepared (recovered : n.Recovered host) {a : Active}
    (found : host.active n.files n.identity n.role = .ok (some a))
    (early : r.phase = .prepared ∨ r.phase = .decided) :
    (n.prepared E r).checkAnchor E host ⟨n.identity, n.role, authority⟩ trust r.phase a = .ok () ↔
      n.Vouched E host trust authority := by
  by_cases present : n.segments.certificates.isSome = true
  · have kept : (n.prepared E r).segments.certificates.isSome = true := present
    rw [checkAnchor, if_pos kept, if_pos early, unit_bind_eq_ok]
    exact ⟨fun vouched _ => vouched, fun vouched => vouched present⟩
  · have bare : n.segments.certificates = none := Option.not_isSome_iff_eq_none.mp present
    obtain ⟨anchored, base⟩ := recovered.anchored a found bare
    have unpruned : r.phase.pruned = false := by
      rcases early with phase | phase <;> rw [phase] <;> rfl
    have kept : ¬(n.prepared E r).segments.certificates.isSome = true := present
    have vouched : n.Vouched E host trust authority := fun some => absurd some present
    refine iff_of_true ?_ vouched
    rw [checkAnchor, if_neg kept]
    simp only [checked_ok]
    refine ⟨_, (Store.calculate_unready ..).trans anchored, rfl, ?_, unpruned⟩
    exact (em (n.role = .primary)).symm.imp id base

theorem Preflighted.checkRecovery (recovered : n.Recovered host)
    (pre : n.Preflighted E host trust r.record) {m : Node F C V} {binding : Binding}
    (owner : m.identity = n.identity ∧ m.role = n.role) (files : m.files = n.files)
    (generation : m.store.generation = n.store.generation) :
    m.checkRecovery E host binding trust r = .ok () ↔
      n.Bound host r.request ∧ ∀ a, host.active n.files n.identity n.role = .ok (some a) →
        m.checkAnchor E host binding trust r.phase a = .ok () := by
  obtain ⟨identity, role⟩ := owner
  obtain ⟨a, found, membership, _⟩ := pre.active
  have only : ∀ b, host.active n.files n.identity n.role = .ok (some b) → b = a := fun b other =>
    Option.some.inj (ok_unique other found)
  have living : a.generation = n.store.generation := recovered.generation a found
  have named := pre.membership
  have same : r.request.membership = a.membership := Option.some.inj (named.trans membership)
  constructor
  · intro ok
    simp only [Node.checkRecovery, identity, role, files, generation, found, ok_bind, queried,
      pure_eq, checked_ok] at ok
    obtain ⟨_, anchored, bound, _⟩ := ok
    refine ⟨⟨a, found, bound⟩, fun b other => ?_⟩
    rw [only b other]
    exact anchored
  · rintro ⟨⟨b, other, bound⟩, anchored⟩
    obtain rfl := only b other
    simp only [Node.checkRecovery, identity, role, files, generation, found, ok_bind, queried,
      pure_eq, checked_ok]
    exact ⟨living, anchored b found, bound, same, named⟩

theorem checkRecovery_prepared (recovered : n.Recovered host)
    (pre : n.Preflighted E host trust r.record) (early : r.phase = .prepared ∨ r.phase = .decided) :
    (n.prepared E r).checkRecovery E host ⟨n.identity, n.role, authority⟩ trust r = .ok () ↔
      n.Bound host r.request ∧ n.Vouched E host trust authority := by
  obtain ⟨a, found, _⟩ := pre.active
  have owner : (n.prepared E r).identity = n.identity ∧ (n.prepared E r).role = n.role := ⟨rfl, rfl⟩
  refine (pre.checkRecovery recovered owner rfl rfl).trans ?_
  refine and_congr_right fun _ => ⟨fun all => ?_, fun vouched b other => ?_⟩
  · exact (checkAnchor_prepared recovered found early).mp (all a found)
  · exact (checkAnchor_prepared recovered other early).mpr vouched

/-- What a closed node lacks. -/
structure Closable (E : Env T) (host : Host F C V) (trust : Trust)
    (authority : Option CertifiedAuthority) (n : Node F C V) (r : Prepared) : Prop where
  markerFits : E.bytes (E.encode (n.mark E r)) ≤ 64 * 1024
  rowFits : E.bytes (E.encode r) ≤ 256 * 1024
  bound : n.Bound host r.request
  vouched : n.Vouched E host trust authority

/-- What `validate_pending` says of the node. -/
def inspected (n : Node F C V) (r : Prepared) (base : Option Prefix) : PendingInspection × Prepared :=
  (⟨n.role, n.identity, (r.plan.localPlan n.role).checkpoint, base⟩, r)

theorem validatePending_prepared (authority : Option CertifiedAuthority) (exact : Option Prepared)
    (steady : host.Steady) (recovered : n.Recovered host)
    (pre : n.Preflighted E host trust r.record) (early : r.phase = .prepared ∨ r.phase = .decided)
    {v : Verified} (signed : E.verifyHistorical r.token trust r.request = .ok v)
    (forward : r.Forward v.tokenDigest) (same : ∀ e ∈ exact, r = e)
    {answer : PendingInspection × Prepared} :
    (n.prepared E r).validatePending E host ⟨n.identity, n.role, authority⟩ r.request trust exact =
        .ok answer ↔
      n.Closable E host trust authority r ∧ n.inspected r n.store.base = answer := by
  have unpruned : r.phase.pruned = false := by
    rcases early with phase | phase <;> rw [phase] <;> rfl
  have marker {found : Marker} :
      (n.prepared E r).checkMarker E host ⟨n.identity, n.role, authority⟩ = .ok found ↔
        E.bytes (E.encode (n.mark E r)) ≤ 64 * 1024 ∧ n.mark E r = found :=
    checkMarker_marked (m := n.prepared E r) rfl ⟨rfl, rfl⟩ rfl pre.initial rfl pre.runtime
  have progress {found : Prepared} :
      (n.prepared E r).checkProgress E r.request exact = .ok found ↔
        E.bytes (E.encode r) ≤ 256 * 1024 ∧ r = found :=
    checkProgress_forward rfl forward same
  have plan := checkPlan_prepared pre unpruned
  simp only [validatePending, run_ok, marker, progress]
  constructor
  · rintro ⟨_, ⟨markerFits, rfl⟩, _, ⟨rowFits, rfl⟩, _, c, planned, _, _, recovery, rfl⟩
    obtain ⟨bound, vouched⟩ := (checkRecovery_prepared recovered pre early).mp recovery
    obtain rfl := ok_unique plan planned
    exact ⟨⟨markerFits, rowFits, bound, vouched⟩, rfl⟩
  · rintro ⟨closable, rfl⟩
    have recovery : (n.prepared E r).checkRecovery E host ⟨n.identity, n.role, authority⟩ trust r =
        .ok () := (checkRecovery_prepared recovered pre early).mpr ⟨closable.bound, closable.vouched⟩
    exact ⟨_, ⟨closable.markerFits, rfl⟩, _, ⟨closable.rowFits, rfl⟩,
      checkHistory_prepared steady recovered pre unpruned, _, plan, v,
      checkEvidence_forward signed forward, recovery, rfl⟩

/-- The walk over the earlier certificates ends where the plan begins. -/
theorem Vouched.walked (vouched : n.Vouched E host trust authority) (recovered : n.Recovered host)
    (pre : n.Preflighted E host trust r.record) :
    ∃ w, (planRows (n.segments.certificates.getD [])).foldlM
        (LineageWalk.visit E trust n.identity n.role (n.segments.certificates.getD []))
        ⟨n.segments.root.getD (r.plan.localPlan n.role).head.base, none, 0, [], 0⟩ = .ok w ∧
      (r.plan.localPlan n.role).head.base = w.preceding ∧
      (∀ row ∈ n.segments.certificates.getD [],
        row.1 < (r.plan.localPlan n.role).checkpoint.sequence) ∧
      (n.segments.certificates.isSome = true → n.segments.root.isSome = true) := by
  cases stored : n.segments.certificates with
  | none =>
    rw [(pre.bare stored).1]
    exact ⟨_, rfl, rfl, by simp, fun some => nomatch some⟩
  | some rows =>
    have present : n.segments.certificates.isSome = true := by rw [stored, Option.isSome_some]
    have version : n.segments.version = 3 := by rw [pre.version, if_pos present]
    have ascending := recovered.ascending
    rw [stored, Option.getD_some] at ascending
    have verified := (vouched present).1
    simp only [Segments.verifyCertified, version, run_ok] at verified
    obtain ⟨found, metadata, _⟩ := verified
    obtain ⟨root, w, rooted, walked, preceding, below⟩ :=
      Segments.verifyMetadata_walked stored ascending (recovered.history rows stored) metadata
    rw [rooted]
    refine ⟨w, walked, pre.base.trans preceding.symm, fun row mem => ?_, fun _ => rfl⟩
    obtain ⟨b, based, le⟩ := below row mem
    have lt := (PairPlan.validateStructural_local pre.structural n.role).2 b
      (pre.base.trans based)
    exact lt_of_le_of_lt le lt

/-- The new row decides whether the cut node's certificates are accepted. -/
theorem checkHistory_cut (random : Bytes32) (steady : host.Steady) (recovered : n.Recovered host)
    (pre : n.Preflighted E host trust r.record) (vouched : n.Vouched E host trust authority)
    (late : r.phase = .applied) :
    (n.cut E r random).checkHistory E host trust (n.mark E r) r = .ok () ↔
      Extends E (n.segments.root.getD (r.plan.localPlan n.role).head.base)
        (n.segments.certificates.getD []) r.record := by
  obtain ⟨w, walked, base, below, _⟩ := vouched.walked recovered pre
  obtain ⟨schema, capacity, accounting⟩ := pre.kept steady recovered (n.cut E r random).store rfl rfl
  obtain ⟨a, _, membership, anchor⟩ := pre.active
  have member : (r.record.plan.localPlan n.role).membership ≠ none := by
    rw [membership]
    exact Option.some_ne_none _
  rw [← verifyMetadata_grown n.segments.completion recovered.ascending walked base below pre.follows
    anchor member pre.signed]
  have pruned : r.phase.pruned = true := by rw [late]; rfl
  simp only [checkHistory, checkLineage, pruned, if_true, checked_ok, require_eq_ok]
  constructor
  · rintro ⟨_, ⟨_, found, metadata, lineage, rfl, _, anchored, matched⟩, _⟩
    obtain rfl := Option.mem_unique anchor anchored
    exact ⟨some lineage, metadata, lineage, rfl, matched⟩
  · rintro ⟨found, metadata, lineage, rfl, matched⟩
    exact ⟨schema, ⟨pre.history, _, metadata, lineage, rfl, _, anchor, matched⟩,
      pre.formats, capacity, accounting⟩

theorem checkPlan_cut (random : Bytes32) (pre : n.Preflighted E host trust r.record) (late : r.phase = .applied)
    (below : ∀ row ∈ n.segments.certificates.getD [],
      row.1 < (r.plan.localPlan n.role).checkpoint.sequence) :
    (n.cut E r random).checkPlan E host (n.mark E r) r = .ok (r.plan.localPlan n.role).checkpoint := by
  obtain ⟨view, current⟩ := pre.current
  have pruned : r.phase.pruned = true := by rw [late]; rfl
  have before : (n.segments.certificates.getD [] ++
      [((r.plan.localPlan n.role).checkpoint.sequence, r.record)]).filter
        (fun row => row.1 < (r.plan.localPlan n.role).checkpoint.sequence) =
      n.segments.certificates.getD [] := by
    rw [List.filter_append, List.filter_eq_self.mpr fun row mem => decide_eq_true (below row mem)]
    simp
  have previous : (n.cut E r random).previousCertificate E r = .ok n.segments.latest := by
    have filtered : ((n.cut E r random).segments.certificates.getD []).filter
        (fun row => row.1 < (r.plan.localPlan (n.cut E r random).role).checkpoint.sequence) =
        n.segments.certificates.getD [] := before
    simp only [previousCertificate, pruned, if_true, filtered, checked_ok]
    exact ⟨pre.latest, rfl⟩
  have closed : (n.prepared E r).store.current host.schema n.identity true =
      .ok ((r.plan.localPlan n.role).checkpoint, view) :=
    (Store.current_unready ..).trans current
  refine pre.checkPlan (m := n.cut E r random) ⟨rfl, rfl⟩ rfl rfl previous (Store.current_pruned random closed) ?_
  rw [pruned]
  rfl

theorem checkRecovery_cut (random : Bytes32) (recovered : n.Recovered host)
    (pre : n.Preflighted E host trust r.record) (late : r.phase = .applied) :
    (n.cut E r random).checkRecovery E host ⟨n.identity, n.role, authority⟩ trust r = .ok () ↔
      n.Bound host r.request := by
  have owner : (n.cut E r random).identity = n.identity ∧ (n.cut E r random).role = n.role := ⟨rfl, rfl⟩
  refine (pre.checkRecovery recovered owner rfl rfl).trans (and_iff_left fun a _ => ?_)
  have present : (n.cut E r random).segments.certificates.isSome = true := rfl
  have past : ¬(r.phase = .prepared ∨ r.phase = .decided) := by rw [late]; decide
  rw [checkAnchor, if_pos present, if_neg past]
  rfl

theorem validatePending_cut (random : Bytes32) (exact : Option Prepared) (steady : host.Steady) (recovered : n.Recovered host)
    (pre : n.Preflighted E host trust r.record) (vouched : n.Vouched E host trust authority)
    (late : r.phase = .applied) {v : Verified}
    (signed : E.verifyHistorical r.token trust r.request = .ok v)
    (forward : r.Forward v.tokenDigest) (same : ∀ e ∈ exact, r = e) :
    (∃ answer, (n.cut E r random).validatePending E host ⟨n.identity, n.role, authority⟩ r.request trust
        exact = .ok answer) ↔
      E.bytes (E.encode (n.mark E r)) ≤ 64 * 1024 ∧ E.bytes (E.encode r) ≤ 256 * 1024 ∧
        n.Bound host r.request ∧
        Extends E (n.segments.root.getD (r.plan.localPlan n.role).head.base)
          (n.segments.certificates.getD []) r.record := by
  have marker {found : Marker} :
      (n.cut E r random).checkMarker E host ⟨n.identity, n.role, authority⟩ = .ok found ↔
        E.bytes (E.encode (n.mark E r)) ≤ 64 * 1024 ∧ n.mark E r = found :=
    checkMarker_marked (m := n.cut E r random) rfl ⟨rfl, rfl⟩ rfl pre.initial rfl pre.runtime
  have progress {found : Prepared} :
      (n.cut E r random).checkProgress E r.request exact = .ok found ↔
        E.bytes (E.encode r) ≤ 256 * 1024 ∧ r = found :=
    checkProgress_forward rfl forward same
  obtain ⟨_, _, _, below, _⟩ := vouched.walked recovered pre
  simp only [validatePending, run_ok, marker, progress]
  constructor
  · rintro ⟨_, _, ⟨markerFits, rfl⟩, _, ⟨rowFits, rfl⟩, history, _, _, _, _, recovery, _⟩
    exact ⟨markerFits, rowFits, (checkRecovery_cut random recovered pre late).mp recovery,
      (checkHistory_cut random steady recovered pre vouched late).mp history⟩
  · rintro ⟨markerFits, rowFits, bound, fits⟩
    exact ⟨_, _, ⟨markerFits, rfl⟩, _, ⟨rowFits, rfl⟩,
      (checkHistory_cut random steady recovered pre vouched late).mpr fits, _,
      checkPlan_cut random pre late below, v, checkEvidence_forward signed forward,
      (checkRecovery_cut random recovered pre late).mpr bound, rfl⟩

theorem latestCertificate_eq_ok {previous : Option CertificateRecord}
    (ok : n.latestCertificate E = .ok previous) :
    previous = n.segments.latest ∧
      ∀ c ∈ n.segments.latest, E.bytes (E.encode c) ≤ maxCertificateBytes := by
  by_cases present : n.segments.certificates.isSome = true
  · simp only [latestCertificate, present, if_true, checked_ok, queried_eq_ok] at ok
    obtain ⟨latest, found, fits, rfl⟩ := ok
    rw [found]
    exact ⟨rfl, fun c same => Option.some.inj same ▸ fits⟩
  · simp only [latestCertificate, present, Bool.false_eq_true, if_false, pure_inj] at ok
    have none : n.segments.latest = none := by
      rw [Segments.latest, Option.not_isSome_iff_eq_none.mp present]
      rfl
    rw [none, ← ok]
    exact ⟨rfl, by simp⟩

theorem validateCertified_membership {plan : PairPlan} (ok : plan.validateCertified E = .ok ())
    (role : Role) : (plan.localPlan role).membership.isSome = true := by
  simp only [PairPlan.validateCertified, unit_bind_eq_ok, ensure_eq_ok] at ok
  obtain ⟨_, first, _, second, _⟩ := ok
  cases role with
  | primary => exact first
  | secondary => exact second

theorem historyFormat_runtime {format derived : ℕ} (runtime : format = 3 ∨ format = 4)
    (ok : n.historyFormat host format = .ok derived) : derived = format - 2 := by
  have ledger : ¬(format = 1 ∨ format = 2) := by omega
  simp only [historyFormat, if_neg ledger, if_pos runtime, bind_eq_ok, pure_eq] at ok
  obtain ⟨_, _, _, _, ok⟩ := ok
  split at ok
  · rw [bind_eq_ok] at ok
    obtain ⟨_, _, same⟩ := ok
    exact (Except.ok.inj same).symm
  · exact (Except.ok.inj ok).symm

theorem requireAppliable_eq_ok (ok : n.requireAppliable = .ok ()) :
    n.requireUnpinned = .ok () ∧
      n.segments.version = (if n.segments.certificates.isSome then 3 else 1) ∧
      (n.segments.certificates = none → n.segments.root = none ∧ n.segments.history = none) := by
  rw [requireAppliable, unit_bind_eq_ok] at ok
  obtain ⟨unpinned, ok⟩ := ok
  cases stored : n.segments.certificates with
  | none =>
    simp only [stored, Option.isSome_none, Bool.false_eq_true, if_false, ensure_eq_ok] at ok ⊢
    exact ⟨unpinned, ok.1, fun _ => ok.2⟩
  | some rows =>
    simp only [stored, Option.isSome_some, if_true, ensure_eq_ok] at ok ⊢
    exact ⟨unpinned, ok, by simp⟩

theorem Preflighted.of_preflight {opened : Opened} (ok : n.preflight E host opened r = .ok ())
    (runtime : n.runtime = 3 ∨ n.runtime = 4) (certified : r.plan.validateCertified E = .ok ())
    (token : r.token.utf8ByteSize ≤ maxToken)
    (signed : ∃ v, E.verifyHistorical r.token trust r.request = .ok v) :
    n.Preflighted E host trust r.record := by
  have structural : r.plan.validateStructural E = .ok () := by
    simp only [PairPlan.validateCertified, unit_bind_eq_ok] at certified
    exact certified.1
  simp only [preflight, planCompaction, admission, verifyOwner, checked_ok, require_eq_ok] at ok
  obtain ⟨fresh, ⟨_, ⟨⟨initial, format, derived, history, _, capacity, formats, schema⟩, _⟩,
    ⟨checkpoint, view⟩, current, head, measured, _, found, active, made⟩, same, appliable,
    previous, latest, follows, manifest, planned, verified⟩ := ok
  have own : r.plan.localPlan n.role = fresh := same.symm
  rw [← made] at own
  obtain ⟨rfl, newest⟩ := latestCertificate_eq_ok latest
  have settled : n.store.current host.schema n.identity true = .ok (checkpoint, view) := by
    have whole := (PairPlan.validateStructural_local structural n.role).1
    rw [own] at whole
    exact Store.current_settled current measured whole
  obtain rfl : format = n.runtime - 2 := historyFormat_runtime runtime derived
  have plannedActive : ∃ a, found = some a := by
    have recovered := validateCertified_membership certified n.role
    rw [own] at recovered
    exact Option.isSome_iff_exists.mp (by simpa using recovered)
  obtain ⟨a, rfl⟩ := plannedActive
  have stored : n.publication = some manifest := by
    rw [own] at planned
    exact planned
  obtain ⟨unpinned, version, bare⟩ := requireAppliable_eq_ok appliable
  exact {
    initial := initial
    runtime := runtime
    format := derived
    history := history
    schema := schema
    formats := formats
    capacity := capacity
    certified := certified
    follows := follows
    latest := newest
    current := ⟨view, own.symm ▸ settled⟩
    head := own.symm ▸ measured
    publication := ⟨manifest, stored, planned, verified⟩
    unpinned := unpinned
    active := ⟨a, active, own.symm ▸ rfl, own.symm ▸ rfl⟩
    token := token
    signed := signed
    version := version
    bare := bare }

theorem insertSequence_last {α : Type} {rows : List (ℕ × α)} {row : ℕ × α}
    (small : row.1 < 2 ^ 63) (below : ∀ old ∈ rows, old.1 < row.1) :
    insertSequence rows row = .ok (rows ++ [row]) :=
  insertSequence_eq_ok.mpr ⟨small, fun old mem => (below old mem).ne, Table.put_last Prod.fst below⟩

theorem historyRows_prepared (recovered : n.Recovered host)
    (pre : n.Preflighted E host trust r.record) :
    (n.prepared E r).historyRows = .ok (planRows (n.segments.certificates.getD [])) := by
  have segments : (n.prepared E r).segments = n.segments := rfl
  rw [historyRows, segments]
  cases stored : n.segments.certificates with
  | none =>
    rw [if_neg (by simp), if_pos (pre.bare stored)]
    rfl
  | some rows =>
    rw [if_pos (by simp), recovered.history rows stored]
    rfl

theorem certify_prepared (recovered : n.Recovered host) (pre : n.Preflighted E host trust r.record)
    (vouched : n.Vouched E host trust authority) :
    (n.prepared E r).certify r = .ok (n.extended r.record) := by
  obtain ⟨_, _, _, below, rooted⟩ := vouched.walked recovered pre
  have rows := historyRows_prepared recovered pre
  obtain ⟨_, current⟩ := pre.current
  have small := Store.current_lt current
  have history : insertSequence (planRows (n.segments.certificates.getD []))
      ((r.plan.localPlan n.role).checkpoint.sequence, r.plan) =
      .ok (planRows (n.segments.certificates.getD []) ++
        [((r.plan.localPlan n.role).checkpoint.sequence, r.plan)]) := by
    refine insertSequence_last small fun old mem => ?_
    obtain ⟨row, inside, rfl⟩ := List.mem_map.mp mem
    exact below row inside
  have certificates : insertSequence (n.segments.certificates.getD [])
      ((r.plan.localPlan n.role).checkpoint.sequence, r.record) =
      .ok (n.segments.certificates.getD [] ++
        [((r.plan.localPlan n.role).checkpoint.sequence, r.record)]) := insertSequence_last small below
  have root : (if n.segments.certificates.isSome then n.segments.root
      else some (r.plan.localPlan n.role).head.base) =
      some (n.segments.root.getD (r.plan.localPlan n.role).head.base) := by
    by_cases present : n.segments.certificates.isSome = true
    · obtain ⟨root, found⟩ := Option.isSome_iff_exists.mp (rooted present)
      rw [if_pos present, found]
      rfl
    · rw [if_neg present, (pre.bare (Option.not_isSome_iff_eq_none.mp present)).1]
      rfl
  simp only [certify, rows, ok_bind, bind_eq_ok, ensure_eq_ok, pure_eq]
  exact ⟨_, history, _, certificates, (), pre.version, congrArg (fun root => Except.ok
    (⟨3, root, _, _, _⟩ : Segments)) root⟩

end Checks

end Node

end TerrapiVault.Maintenance
