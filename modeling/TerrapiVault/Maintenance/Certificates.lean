import TerrapiVault.Maintenance.Effects
import Mathlib.Data.List.Chain
import Mathlib.Data.List.Perm.Subperm

/-! What `verify_metadata` says of the stored certificates: every one of them is visited
once, in sequence order, and their revisions grow. -/
namespace TerrapiVault.Maintenance

open Replication (Role)
open Recovery

variable {T : Type → Type} {E : Env T} {trust : Trust} {identity : Identity} {role : Role}

theorem followsCertificate_revision {old q : Request} (ok : followsCertificate old q = .ok ()) :
    old.revision < q.revision := by
  simp only [followsCertificate, checked_ok, checkedSucc_eq_ok] at ok
  obtain ⟨_, next, succ, same, _⟩ := ok
  omega

theorem PairPlan.validatePublication_eq_ok {n : CompactionPlan}
    (ok : validatePublication E n = .ok ()) : n.head.length = n.checkpoint.sequence ∧
      ∀ b ∈ n.head.base, b.sequence < n.checkpoint.sequence := by
  simp only [validatePublication, checked_ok] at ok
  obtain ⟨m, found, text, encoded, _, _, identity, length, receipts, base⟩ := ok
  exact ⟨length, base⟩

theorem PairPlan.validateStructural_local {plan : PairPlan} (ok : plan.validateStructural E = .ok ())
    (role : Role) : (plan.localPlan role).head.length = (plan.localPlan role).checkpoint.sequence ∧
      ∀ b ∈ (plan.localPlan role).head.base,
        b.sequence < (plan.localPlan role).checkpoint.sequence := by
  simp only [validateStructural, run_ok] at ok
  cases role with
  | primary => exact validatePublication_eq_ok ok.2.1
  | secondary => exact validatePublication_eq_ok ok.2.2

/-- The certificates a walk has come past, the oldest first. -/
structure LineageWalk.Passed (certificates : List (ℕ × CertificateRecord)) (w : LineageWalk)
    (visited : List (ℕ × CertificateRecord)) : Prop where
  stored : ∀ v ∈ visited, v ∈ certificates
  counted : w.verified = visited.length
  ascending : visited.Pairwise fun a b => a.1 < b.1
  below : ∀ v ∈ visited, ∃ b ∈ w.preceding, v.1 ≤ b.sequence
  newest : w.previous = visited.getLast?.map Prod.snd
  revisions : ∀ v ∈ visited, ∀ r ∈ w.previous, v.2.request.revision ≤ r.request.revision

namespace LineageWalk.Passed

variable {certificates visited : List (ℕ × CertificateRecord)} {w w' : LineageWalk}
  {row : ℕ × PairPlan}

theorem visit (passed : w.Passed certificates visited)
    (ok : w.visit E trust identity role certificates row = .ok w') :
    ∃ visited', w'.Passed certificates visited' := by
  simp only [LineageWalk.visit, checked_ok] at ok
  obtain ⟨_, structural, ⟨sequence, _, base⟩, ok⟩ := ok
  have above := (PairPlan.validateStructural_local structural role).2
  have later : ∀ v ∈ visited, v.1 < row.1 := by
    intro v mem
    obtain ⟨b, held, le⟩ := passed.below v mem
    have lt := above b (base ▸ held)
    omega
  split at ok
  · simp only [run_ok] at ok
    obtain ⟨_, rfl⟩ := ok
    refine ⟨visited, passed.stored, passed.counted, passed.ascending, ?_, passed.newest,
      passed.revisions⟩
    intro v mem
    exact ⟨_, rfl, sequence ▸ (later v mem).le⟩
  · simp only [checked_ok, require_eq_ok] at ok
    obtain ⟨record, found, _, _, valid, _, _, _, _, rfl⟩ := ok
    obtain ⟨⟨key, stored⟩, first, rfl⟩ := Option.map_eq_some_iff.mp found
    have named : key = row.1 := by simpa using List.find?_some first
    have grows : ∀ v ∈ visited, v.2.request.revision ≤ stored.request.revision := by
      intro v mem
      obtain ⟨old, last⟩ : ∃ old, w.previous = some old := by
        rw [passed.newest]
        cases tail : visited.getLast? with
        | none => simp [List.getLast?_eq_none_iff.mp tail] at mem
        | some u => exact ⟨_, rfl⟩
      simp only [validateRecord, last, bind_eq_ok] at valid
      obtain ⟨_, _, follows⟩ := valid
      have lt := followsCertificate_revision follows
      have le := passed.revisions v mem old last
      omega
    refine ⟨visited ++ [(key, stored)], ?_, ?_, ?_, ?_, ?_, ?_⟩
    · intro v mem
      rcases List.mem_append.mp mem with old | new
      · exact passed.stored v old
      · obtain rfl := List.mem_singleton.mp new
        exact List.mem_of_find?_eq_some first
    · simp [passed.counted]
    · refine List.pairwise_append.mpr ⟨passed.ascending, List.pairwise_singleton .., ?_⟩
      intro v mem u new
      obtain rfl := List.mem_singleton.mp new
      exact named ▸ later v mem
    · intro v mem
      refine ⟨_, rfl, ?_⟩
      rcases List.mem_append.mp mem with old | new
      · exact sequence ▸ (later v old).le
      · obtain rfl := List.mem_singleton.mp new
        exact (named.trans sequence).le
    · simp
    · intro v mem r last
      obtain rfl := Option.some.inj last
      rcases List.mem_append.mp mem with old | new
      · exact grows v old
      · obtain rfl := List.mem_singleton.mp new
        exact le_rfl

theorem walk {history : List (ℕ × PairPlan)} (passed : w.Passed certificates visited)
    (ok : history.foldlM (LineageWalk.visit E trust identity role certificates) w = .ok w') :
    ∃ visited', w'.Passed certificates visited' := by
  induction history generalizing w visited with
  | nil =>
    obtain rfl := Except.ok.inj ok
    exact ⟨visited, passed⟩
  | cons row history ih =>
    rw [List.foldlM_cons, bind_eq_ok] at ok
    obtain ⟨middle, first, rest⟩ := ok
    obtain ⟨_, passed⟩ := passed.visit first
    exact ih passed rest

end LineageWalk.Passed

namespace Segments

variable {segments : Segments} {base : Option Prefix}

theorem verifyMetadata_newest {opened : Option Trust} {lineage : VerifiedLineage}
    (ok : segments.verifyMetadata E base identity role 3 opened = .ok (some lineage)) :
    ∀ row ∈ segments.certificates.getD [], row.2.request.revision ≤ lineage.lastRevision := by
  obtain ⟨_, certificates, trust, history, root, walk, last, found, walked, all, newest, same⟩ :=
    verifyMetadata_eq_ok ok
  have start : LineageWalk.Passed certificates ⟨root, none, 0, [], 0⟩ [] :=
    ⟨by simp, rfl, .nil, by simp, rfl, by simp⟩
  obtain ⟨visited, passed⟩ := start.walk walked
  have whole : visited.Perm certificates := by
    have distinct : visited.Nodup := passed.ascending.imp fun lt same => by
      rw [same] at lt
      exact lt_irrefl _ lt
    refine (distinct.subperm passed.stored).perm_of_length_le ?_
    rw [← passed.counted, all]
  intro row mem
  rw [found, Option.getD_some] at mem
  exact same ▸ passed.revisions row (whole.mem_iff.mpr mem) last newest

end Segments

theorem Node.preflight_new {F C V : Type} {host : Host F C V} {n : Node F C V} {opened : Opened}
    {r : Prepared} (ok : n.preflight E host opened r = .ok ()) : r.request ∉ n.certified := by
  intro known
  obtain ⟨row, stored, same⟩ := List.mem_map.mp known
  have present : n.segments.certificates.isSome = true := by
    by_contra absent
    simp [Option.not_isSome_iff_eq_none.mp absent] at stored
  simp only [preflight, planCompaction, admission, verifyOwner, requireAppliable, latestCertificate,
    present, if_true, checked_ok, queried_eq_ok] at ok
  obtain ⟨_, ⟨_, ⟨⟨_, _, _, _, verified, _⟩, _⟩, _⟩, _, ⟨_, version⟩, _, ⟨latest, newest, _, rfl⟩,
    valid, _⟩ := ok
  simp only [Segments.verifyCertified, version, if_true, checked_ok, require_eq_ok,
    queried_eq_ok] at verified
  obtain ⟨_, metadata, _, _, _, _, lineage, rfl, certificate, found, _, _, _, ⟨_, _, _, _,
    revision⟩, _⟩ := verified
  obtain rfl : certificate = latest := Option.mem_unique found newest
  have old := Segments.verifyMetadata_newest metadata row stored
  simp only [validateRecord, bind_eq_ok] at valid
  obtain ⟨_, _, follows⟩ := valid
  have later : certificate.request.revision < r.request.revision :=
    followsCertificate_revision follows
  rw [same] at old
  omega

end TerrapiVault.Maintenance
