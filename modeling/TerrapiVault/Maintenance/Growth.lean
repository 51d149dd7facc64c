import TerrapiVault.Maintenance.Certificates

/-! One more certificate at the end of a node's certificates: `verify_metadata` accepts
the longer history exactly when the new row fits. -/
namespace TerrapiVault.Maintenance

open Replication (ensure_eq_ok Role)
open Recovery

variable {T : Type → Type} {E : Env T} {trust : Trust} {identity : Identity} {role : Role}

/-- The history beside the certificates of a node that was only compacted by certified
cycles. -/
def planRows (rows : List (ℕ × CertificateRecord)) : List (ℕ × PairPlan) :=
  rows.map fun row => (row.1, row.2.plan)

/-- A walk that has come past exactly these certificates. -/
structure LineageWalk.After (role : Role) (root : Option Prefix)
    (rows : List (ℕ × CertificateRecord)) (w : LineageWalk) : Prop where
  preceding : w.preceding = rows.getLast?.elim root fun row =>
    some (row.2.plan.localPlan role).checkpoint
  previous : w.previous = rows.getLast?.map Prod.snd
  seen : ∀ id, id ∈ w.seen ↔ ∃ row ∈ rows, row.2.request.id = id
  verified : w.verified = rows.length
  below : ∀ row ∈ rows, ∃ b ∈ w.preceding, row.1 ≤ b.sequence

variable {record : CertificateRecord} {rows : List (ℕ × CertificateRecord)}

namespace LineageWalk

variable {certificates : List (ℕ × CertificateRecord)} {w w' : LineageWalk} {root : Option Prefix}

theorem visit_certificate {key : ℕ}
    (found : certificates.find? (fun c => c.1 = key) = some (key, record))
    (ok : w.visit E trust identity role certificates (key, record.plan) = .ok w') :
    record.plan.validateStructural E = .ok () ∧
    key = (record.plan.localPlan role).checkpoint.sequence ∧
    (record.plan.localPlan role).head.base = w.preceding ∧
    E.bytes (E.encode record.plan) ≤ 128 * 1024 ∧
    E.bytes (E.encode record) ≤ maxCertificateBytes ∧ record.request.id ∉ w.seen ∧
    w' = ⟨some (record.plan.localPlan role).checkpoint, some record,
      if w.previous = none then record.request.revision else w.firstRevision,
      record.request.id :: w.seen, w.verified + 1⟩ := by
  simp only [visit, found, Option.map_some, checked_ok] at ok
  obtain ⟨small, structural, ⟨sequence, _, base⟩, ok⟩ := ok
  split at ok
  · simp [bind_eq_ok] at ok
  · simp only [checked_ok, require_eq_ok, Option.some.injEq] at ok
    obtain ⟨_, rfl, fits, _, _, _, _, _, fresh, rfl⟩ := ok
    exact ⟨structural, sequence, base, small, fits, fresh, rfl⟩

theorem visit_new {key : ℕ} (found : certificates.find? (fun c => c.1 = key) = some (key, record))
    (sequence : key = (record.plan.localPlan role).checkpoint.sequence)
    (base : (record.plan.localPlan role).head.base = w.preceding)
    (valid : validateRecord E record identity role w.previous = .ok ())
    (member : (record.plan.localPlan role).membership ≠ none)
    (signed : ∃ v, E.verifyHistorical record.token trust record.request = .ok v)
    (planFits : E.bytes (E.encode record.plan) ≤ 128 * 1024)
    (recordFits : E.bytes (E.encode record) ≤ maxCertificateBytes)
    (fresh : record.request.id ∉ w.seen) :
    w.visit E trust identity role certificates (key, record.plan) =
      .ok ⟨some (record.plan.localPlan role).checkpoint, some record,
        if w.previous = none then record.request.revision else w.firstRevision,
        record.request.id :: w.seen, w.verified + 1⟩ := by
  obtain ⟨v, signed⟩ := signed
  have binds : record.plan.validateStructural E = .ok () ∧
      (record.plan.localPlan role).checkpoint.identity = identity := by
    simp only [validateRecord, bindsPlan, checked_ok] at valid
    obtain ⟨⟨_, structural, _, _, _, _, _, _, _, _, _, _, same, _⟩, _⟩ := valid
    exact ⟨structural, same⟩
  simp only [visit, found, Option.map_some, bind_eq_ok, if_neg member]
  exact ⟨(), ensure_eq_ok.mpr planFits, (), binds.1, (), ensure_eq_ok.mpr ⟨sequence, binds.2, base⟩,
    record, rfl, (), ensure_eq_ok.mpr recordFits, (), ensure_eq_ok.mpr rfl, (), valid, (),
    ensure_eq_ok.mpr sequence, v, signed, (), ensure_eq_ok.mpr fresh, rfl⟩

theorem After.nil (root : Option Prefix) : After role root [] ⟨root, none, 0, [], 0⟩ :=
  ⟨rfl, rfl, by simp, rfl, by simp⟩

theorem After.visit {key : ℕ} (after : After role root rows w)
    (found : certificates.find? (fun c => c.1 = key) = some (key, record))
    (ok : w.visit E trust identity role certificates (key, record.plan) = .ok w') :
    After role root (rows ++ [(key, record)]) w' := by
  obtain ⟨structural, sequence, base, _, _, _, rfl⟩ := visit_certificate found ok
  refine ⟨by simp, by simp, fun id => ?_, by simp [after.verified], fun row mem => ⟨_, rfl, ?_⟩⟩
  · simp only [List.mem_cons, after.seen, List.mem_append, List.not_mem_nil, or_false]
    constructor
    · rintro (rfl | ⟨row, mem, same⟩)
      · exact ⟨_, .inr rfl, rfl⟩
      · exact ⟨row, .inl mem, same⟩
    · rintro ⟨row, mem | rfl, same⟩
      · exact .inr ⟨row, mem, same⟩
      · exact .inl same.symm
  · rcases List.mem_append.mp mem with old | new
    · obtain ⟨b, preceding, le⟩ := after.below row old
      have lt := (PairPlan.validateStructural_local structural role).2 b (base.trans preceding)
      omega
    · obtain rfl := List.mem_singleton.mp new
      exact sequence.le

theorem find_key (ascending : rows.Pairwise (·.1 < ·.1)) {row : ℕ × CertificateRecord}
    (mem : row ∈ rows) : rows.find? (fun c => c.1 = row.1) = some row := by
  refine Table.find?_unique mem (by simp) fun other inside same => ?_
  have key : other.1 = row.1 := by simpa using same
  by_contra apart
  have symmetric : Std.Symm fun a b : ℕ × CertificateRecord => a.1 ≠ b.1 := ⟨fun _ _ => Ne.symm⟩
  have distinct : rows.Pairwise fun a b => a.1 ≠ b.1 := ascending.imp Nat.ne_of_lt
  exact distinct.forall inside mem apart key

theorem walk_after {front : List (ℕ × CertificateRecord)}
    (ascending : certificates.Pairwise (·.1 < ·.1)) (within : ∀ row ∈ rows, row ∈ certificates)
    (after : After role root front w)
    (ok : (planRows rows).foldlM (visit E trust identity role certificates) w = .ok w') :
    After role root (front ++ rows) w' := by
  induction rows generalizing w front with
  | nil =>
    obtain rfl := Except.ok.inj ok
    simpa using after
  | cons row rows ih =>
    rw [planRows, List.map_cons, List.foldlM_cons, bind_eq_ok] at ok
    obtain ⟨middle, first, rest⟩ := ok
    have found := find_key ascending (within row List.mem_cons_self)
    have next := after.visit found first
    have whole := ih (fun r mem => within r (List.mem_cons_of_mem _ mem)) next rest
    rwa [List.append_assoc, List.singleton_append] at whole

theorem walk_extended {rows : List (ℕ × PairPlan)} {new : ℕ × CertificateRecord}
    (apart : ∀ row ∈ rows, row.1 ≠ new.1) :
    rows.foldlM (visit E trust identity role (certificates ++ [new])) w =
      rows.foldlM (visit E trust identity role certificates) w := by
  induction rows generalizing w with
  | nil => rfl
  | cons row rows ih =>
    have same : (certificates ++ [new]).find? (fun c => c.1 = row.1) =
        certificates.find? fun c => c.1 = row.1 := by
      rw [List.find?_append]
      have other : [new].find? (fun c => c.1 = row.1) = none := by
        simp [Ne.symm (apart row List.mem_cons_self)]
      rw [other, Option.or_none]
    have one : visit E trust identity role (certificates ++ [new]) w row =
        visit E trust identity role certificates w row := by
      simp only [visit, same]
    rw [List.foldlM_cons, List.foldlM_cons, one]
    congr 1
    funext middle
    exact ih fun r mem => apart r (List.mem_cons_of_mem _ mem)

theorem walk_small {rows : List (ℕ × PairPlan)}
    (ok : rows.foldlM (visit E trust identity role certificates) w = .ok w') :
    ∀ row ∈ rows, E.bytes (E.encode row.2) ≤ 128 * 1024 := by
  induction rows generalizing w with
  | nil => simp
  | cons row rows ih =>
    rw [List.foldlM_cons, bind_eq_ok] at ok
    obtain ⟨middle, first, rest⟩ := ok
    simp only [visit, checked_ok] at first
    obtain ⟨small, _⟩ := first
    exact List.forall_mem_cons.mpr ⟨small, ih rest⟩

end LineageWalk

theorem Segments.verifyMetadata_walked {segments : Segments} {base : Option Prefix}
    {found : Option VerifiedLineage} (stored : segments.certificates = some rows)
    (ascending : rows.Pairwise (·.1 < ·.1)) (history : segments.history = some (planRows rows))
    (ok : segments.verifyMetadata E base identity role 3 (some trust) = .ok found) :
    ∃ root w, segments.root = some root ∧
      (planRows rows).foldlM (LineageWalk.visit E trust identity role rows) ⟨root, none, 0, [], 0⟩ =
        .ok w ∧ w.preceding = base ∧ ∀ row ∈ rows, ∃ b ∈ base, row.1 ≤ b.sequence := by
  simp only [verifyMetadata, stored, history, ne_eq, not_true_eq_false, if_false, require_eq_ok,
    queried_eq_ok, pure_eq, checked_ok, Option.some.injEq, exists_eq_left'] at ok
  obtain ⟨checkpoint, rfl, _, _, root, rooted, _, w, walked, _, last, newest, based, _⟩ := ok
  have after : LineageWalk.After role root rows w :=
    LineageWalk.walk_after ascending (fun _ mem => mem) (.nil root) walked
  have preceding : w.preceding = some checkpoint := by
    rw [after.preceding]
    obtain ⟨row, final, same⟩ := Option.map_eq_some_iff.mp (after.previous.symm.trans newest)
    rw [final, Option.elim_some, same, based]
  exact ⟨root, w, rooted, walked, preceding, preceding ▸ after.below⟩

/-- The tables after one more certificate. -/
def grown (root : Option Prefix) (rows : List (ℕ × CertificateRecord)) (key : ℕ)
    (record : CertificateRecord) (completion : Option (ℕ × Id × Id × Id)) : Segments where
  version := 3
  root := some root
  history := some (planRows rows ++ [(key, record.plan)])
  certificates := some (rows ++ [(key, record)])
  completion := completion

/-- What the new row still has to satisfy. -/
structure Extends (E : Env T) (root : Option Prefix) (rows : List (ℕ × CertificateRecord))
    (record : CertificateRecord) : Prop where
  room : rows.length < maxCertificateRows
  rootFits : E.bytes (E.encode root) ≤ 256 * 1024
  planFits : E.bytes (E.encode record.plan) ≤ 128 * 1024
  recordFits : E.bytes (E.encode record) ≤ maxCertificateBytes
  unused : ∀ row ∈ rows, row.2.request.id ≠ record.request.id

section Grown

variable {root : Option Prefix} {rows : List (ℕ × CertificateRecord)} {record : CertificateRecord}
  {w : LineageWalk} {anchor : Prefix}

theorem verifyMetadata_grown (completion : Option (ℕ × Id × Id × Id))
    (ascending : rows.Pairwise (·.1 < ·.1))
    (walked : (planRows rows).foldlM (LineageWalk.visit E trust identity role rows)
      ⟨root, none, 0, [], 0⟩ = .ok w)
    (base : (record.plan.localPlan role).head.base = w.preceding)
    (below : ∀ row ∈ rows, row.1 < (record.plan.localPlan role).checkpoint.sequence)
    (valid : validateRecord E record identity role (rows.getLast?.map Prod.snd) = .ok ())
    (anchored : (record.plan.localPlan role).recoveryAnchor = some anchor)
    (member : (record.plan.localPlan role).membership ≠ none)
    (signed : ∃ v, E.verifyHistorical record.token trust record.request = .ok v) :
    (∃ found, (grown root rows (record.plan.localPlan role).checkpoint.sequence record
        completion).verifyMetadata E (some (record.plan.localPlan role).checkpoint) identity role 3
          (some trust) = .ok found ∧ ∃ lineage ∈ found, lineage.sourceAnchor = anchor ∧
          lineage.currentBase = (record.plan.localPlan role).checkpoint) ↔
      Extends E root rows record := by
  have after : LineageWalk.After role root rows w :=
    LineageWalk.walk_after ascending (fun _ mem => mem) (.nil root) walked
  set key := (record.plan.localPlan role).checkpoint.sequence with named
  have apart : ∀ row ∈ planRows rows, row.1 ≠ key := by
    intro row mem
    obtain ⟨old, inside, rfl⟩ := List.mem_map.mp mem
    exact (below old inside).ne
  have found : (rows ++ [(key, record)]).find? (fun c => c.1 = key) = some (key, record) := by
    have none : rows.find? (fun c => c.1 = key) = none :=
      List.find?_eq_none.mpr fun row mem => by simpa using (below row mem).ne
    simp [List.find?_append, none]
  have walk : ∀ last, (planRows rows ++ [(key, record.plan)]).foldlM
      (LineageWalk.visit E trust identity role (rows ++ [(key, record)])) ⟨root, none, 0, [], 0⟩ =
        .ok last ↔
      w.visit E trust identity role (rows ++ [(key, record)]) (key, record.plan) = .ok last := by
    intro last
    rw [List.foldlM_append, LineageWalk.walk_extended apart, walked, ok_bind,
      List.foldlM_cons]
    simp only [List.foldlM_nil, bind_pure]
  have previous : w.previous = rows.getLast?.map Prod.snd := after.previous
  simp only [Segments.verifyMetadata, grown, ne_eq, not_true_eq_false, if_false, require_eq_ok,
    queried_eq_ok, pure_eq, checked_ok, Option.some.injEq, exists_eq_left', walk]
  constructor
  · rintro ⟨_, ⟨rows', history, root', last, visited, _⟩, _⟩
    obtain ⟨_, _, _, planFits, recordFits, fresh, _⟩ := LineageWalk.visit_certificate found visited
    simp only [List.length_append, List.length_singleton] at rows'
    refine ⟨by omega, root', planFits, recordFits, fun row mem same => ?_⟩
    exact fresh ((after.seen _).mpr ⟨row, mem, same⟩)
  · intro fits
    have fresh : record.request.id ∉ w.seen := by
      intro seen
      obtain ⟨row, mem, same⟩ := (after.seen _).mp seen
      exact fits.unused row mem same
    have visited := LineageWalk.visit_new found named base (previous ▸ valid) member signed
      fits.planFits fits.recordFits fresh
    have length : (planRows rows).length = rows.length := List.length_map ..
    have room := fits.room
    refine ⟨some ⟨anchor, _, _, _, _⟩, ⟨?_, ⟨?_, ?_⟩, fits.rootFits, _, visited, ?_,
      record, rfl, rfl, anchor, anchored, rfl⟩, _, rfl, rfl, rfl⟩
    · simp only [List.length_append, List.length_singleton]
      omega
    · simp only [List.length_append, List.length_singleton]
      omega
    · intro row mem
      rcases List.mem_append.mp mem with old | new
      · exact LineageWalk.walk_small walked row old
      · obtain rfl := List.mem_singleton.mp new
        exact fits.planFits
    · simp [after.verified]

end Grown

end TerrapiVault.Maintenance
