import TerrapiVault.Recovery.LossSteps

/-! The loss chain read back. The reader bounds the chain, the superseding writer does
not, so a recorded loss reads back exactly while the chain has room. -/
namespace TerrapiVault.Recovery

open Replication (ensure_eq_ok)

variable {T : Type → Type}

/-- A superseding loss finds room in the chain; a first loss finds no rest of a chain. -/
def Journal.ChainRoom (j : Journal T) (request : LossRequest) : Prop :=
  match request.supersedes with
  | some _ => (j.lossChain.getD []).length < maxChainRows
  | none => j.lossChain.getD [] = [] ∧ (j.readChainHead = none ∨
      j.lossChain = some [] ∧ j.readChainHead = some (request.revision, 0))

variable {E : Env T} {trust : Trust} {j j' : Journal T} {r : LossRecord} {chain : List LossRecord}
  {certificate : Id} {prev : LossRecord}

theorem decodeLossRow_eq_ok {text : T LossRecord} {digest : Id} :
    E.decodeLossRow text digest trust = .ok r ↔
      (E.bytes text ≤ maxRecord ∧ digest = E.sha256 text ∧ E.decode text = some r) ∧
        E.verifyLossHistorical r.token trust r.request = .ok r.certificateId := by
  simp only [Env.decodeLossRow, Env.verifyLoss, checked_ok, load_eq_ok]
  constructor
  · rintro ⟨_, loaded, ⟨_, verified, rfl⟩, rfl⟩
    exact ⟨loaded, verified⟩
  · rintro ⟨loaded, verified⟩
    exact ⟨r, loaded, ⟨_, verified, rfl⟩, rfl⟩

theorem decodeLossRow_cell (fits : E.bytes (E.encode r) ≤ maxRecord)
    (verified : E.verifyLossHistorical r.token trust r.request = .ok r.certificateId) :
    E.decodeLossRow (E.encode r) (E.digest r) trust = .ok r :=
  decodeLossRow_eq_ok.mpr ⟨⟨fits, rfl, E.decode_encode r⟩, verified⟩

theorem followChain_verified {previous : LossRecord} {rows : List (Row T LossRecord)}
    (h : E.followChain trust previous rows = .ok chain) :
    ∀ r ∈ chain, E.verifyLossHistorical r.token trust r.request = .ok r.certificateId := by
  induction rows generalizing previous chain with
  | nil =>
    obtain rfl := Except.ok.inj h
    simp
  | cons row rows ih =>
    obtain ⟨record, rest, follows, followed, rfl⟩ := followChain_cons_eq_ok.mp h
    rw [List.forall_mem_cons]
    exact ⟨(decodeLossRow_eq_ok.mp follows.decoded).2, ih followed⟩

namespace Journal

theorem readLossHistory_verified (h : j.readLossHistory E trust = .ok chain) :
    ∀ r ∈ chain, E.verifyLossHistorical r.token trust r.request = .ok r.certificateId := by
  obtain ⟨_, rfl⟩ | ⟨cell, first, rest, _, reads, rfl⟩ := readLossHistory_cases h
  · simp
  · rw [List.forall_mem_cons]
    exact ⟨(decodeLossRow_eq_ok.mp reads.decoded).2, followChain_verified reads.followed⟩

/-- The loss reads back as the effective one, and `fetch_loss` returns it. -/
def Recovers (E : Env T) (j : Journal T) (trust : Trust) (c : CommittedLoss) : Prop :=
  ∃ chain, j.readLossHistory E trust = .ok chain ∧
    chain.getLast? = some ⟨c.request, c.token, c.certificateId⟩ ∧
    ∀ ask policy, policy.continuityAndFencing ask j.scope c.request = .ok () →
      j.fetchLoss E ask trust policy = .ok c

variable (format : j.ensureJournalFormat E = .ok ())
include format

section

variable (read : j.readLossHistory E trust = .ok chain)
include read

theorem recovers_of_read {c : CommittedLoss}
    (last : chain.getLast? = some ⟨c.request, c.token, c.certificateId⟩)
    (digest : c.tokenDigest = E.tokenDigest c.token) : j.Recovers E trust c := by
  refine ⟨chain, read, last, fun ask policy allowed => ?_⟩
  have verified := readLossHistory_verified read _ (List.mem_of_getLast? last)
  simp only [fetchLoss, readRecord, format, read, last, require, ok_bind, pure_eq, allowed,
    Env.committedLoss, verified, ← digest]

theorem retry_recovers {c : CommittedLoss} {old : LossRecord} (last : chain.getLast? = some old)
    (committed : E.committedLoss old trust = .ok c) : j.Recovers E trust c := by
  have verified := readLossHistory_verified read old (List.mem_of_getLast? last)
  simp only [Env.committedLoss, verified, ok_bind, pure_inj] at committed
  subst committed
  exact recovers_of_read format read last rfl

omit format in
theorem superseding_room {chain' : List LossRecord} (last : chain.getLast? = some prev)
    (next : r.request.revision = prev.request.revision + 1)
    (saved : j.saveChainRecord E r = .ok j') (read' : j'.readLossHistory E trust = .ok chain') :
    (j.lossChain.getD []).length < maxChainRows := by
  obtain ⟨_, rfl⟩ | ⟨cell, first, rest, loss, reads, rfl⟩ := readLossHistory_cases read
  · cases last
  obtain ⟨_, marked, _, same⟩ := saveChainRecord_eq_ok (next ▸ reads.below last) saved
  have loss' : j'.loss = some (some cell) := same ▸ loss
  obtain ⟨_, _, reads', _⟩ := (readLossHistory_some loss').mp read'
  have count := reads'.count
  rw [same] at count
  simp only [Option.getD_some, List.length_append, List.length_cons, List.length_nil] at count
  omega

section

variable {request : LossRequest} {token : String} {s : Supersedes} {retired : Retired}
  (last : chain.getLast? = some prev) (supersedes : request.supersedes = some s)
  (binds : E.supersedesPrevious s prev request chain retired = .ok ())
  (next : request.revision = prev.request.revision + 1)
  (bounded : prev.request.revision + 1 < 2 ^ 64)
  (verified : E.verifyLossHistorical token trust request = .ok certificate)
  (saved : j.saveChainRecord E ⟨request, token, certificate⟩ = .ok j')
include last supersedes binds next bounded verified saved

omit format in
theorem superseding_read (room : (j.lossChain.getD []).length < maxChainRows) :
    j'.readLossHistory E trust = .ok (chain ++ [⟨request, token, certificate⟩]) := by
  obtain ⟨_, rfl⟩ | ⟨cell, first, rest, loss, reads, rfl⟩ := readLossHistory_cases read
  · cases last
  obtain rfl := getLast?_chain last
  have length := (followChain_revisions reads.followed).1
  have below : ∀ row ∈ j.lossChain.getD [], row.revision < request.revision :=
    next ▸ reads.below last
  obtain ⟨fits, marked, mark, same⟩ := saveChainRecord_eq_ok below saved
  have loss' : j'.loss = some (some cell) := same ▸ loss
  have binding : s.lossCertificate = (rest.getLastD first).certificateId ∧
      s.lossTokenDigest = E.tokenDigest (rest.getLastD first).token := by
    simp only [Env.supersedesPrevious, unit_bind_eq_ok, ensure_eq_ok] at binds
    exact binds.1
  have follows : Follows E trust (rest.getLastD first)
      (E.row request.revision ⟨request, token, certificate⟩) ⟨request, token, certificate⟩ :=
    ⟨decodeLossRow_cell fits verified, rfl, ⟨s, supersedes, binding⟩, bounded, next⟩
  have reads' : j'.ChainReads E trust cell first (rest ++ [⟨request, token, certificate⟩]) := by
    rw [same]
    refine ⟨reads.decoded, reads.root, ?_, ?_, ?_, ?_, ?_⟩
    · simp only [Option.getD_some, List.length_append, List.length_cons, List.length_nil]
      omega
    · rw [Option.getD_some, List.forall_mem_append, List.forall_mem_singleton]
      exact ⟨reads.length, (E.characters_le_bytes _).trans fits⟩
    · exact followChain_concat.mpr ⟨rest, _, reads.followed, follows, rfl⟩
    · refine ensure_eq_ok.mpr ⟨by simp [length], ⟨request, token, certificate⟩, ?_, rfl⟩
      simp [List.getLast?_cons]
    · simp
  exact (readLossHistory_some loss').mpr ⟨first, _, reads', rfl⟩

theorem superseding_recovers :
    j'.Recovers E trust ⟨request, token, certificate, E.tokenDigest token⟩ ↔
      (j.lossChain.getD []).length < maxChainRows := by
  obtain ⟨_, rfl⟩ | ⟨cell, first, rest, loss, reads, rfl⟩ := readLossHistory_cases read
  · cases last
  have below : ∀ row ∈ j.lossChain.getD [], row.revision < request.revision :=
    next ▸ reads.below last
  obtain ⟨_, marked, mark, same⟩ := saveChainRecord_eq_ok below saved
  constructor
  · rintro ⟨chain', read', _⟩
    exact superseding_room read last next saved read'
  · intro room
    have format' : j'.ensureJournalFormat E = .ok () :=
      ensureJournalFormat_marked format mark (by rw [same]) (by rw [same])
    exact recovers_of_read format'
      (superseding_read read last supersedes binds next bounded verified saved room)
      List.getLast?_concat rfl

end

end

theorem first_recovers {request : LossRequest} {token : String}
    (supersedes : request.supersedes = none)
    (verified : E.verifyLossHistorical token trust request = .ok certificate)
    (saved : j.saveRecord E ⟨request, token, certificate⟩ = .ok j') :
    j'.Recovers E trust ⟨request, token, certificate, E.tokenDigest token⟩ ↔
      j.lossChain.getD [] = [] ∧ (j.readChainHead = none ∨
        j.lossChain = some [] ∧ j.readChainHead = some (request.revision, 0)) := by
  obtain ⟨fits, _, same⟩ := saveRecord_eq_ok saved
  have loss' : j'.loss = some (some (E.cell ⟨request, token, certificate⟩)) := by rw [same]
  have table : j'.lossChain = j.lossChain := by rw [same]
  have head : j'.readChainHead = j.readChainHead := by rw [same]; rfl
  have decoded := decodeLossRow_cell (r := ⟨request, token, certificate⟩) fits verified
  rw [← table, ← head]
  constructor
  · rintro ⟨chain', read', last, _⟩
    obtain ⟨first, rest, reads, rfl⟩ := (readLossHistory_some loss').mp read'
    obtain rfl := ok_unique reads.decoded decoded
    obtain ⟨length, top, _⟩ := followChain_revisions reads.followed
    have own : rest.getLastD _ = ⟨request, token, certificate⟩ := getLast?_chain last
    rw [own] at top
    have empty : j'.lossChain.getD [] = [] := List.eq_nil_of_length_eq_zero (by omega)
    refine ⟨empty, ?_⟩
    have checked := reads.head
    cases known : j'.readChainHead with
    | none => exact .inl rfl
    | some head =>
      obtain ⟨revision, count⟩ := head
      simp only [known, checkChainHead, ensure_eq_ok, List.length_cons, length, empty,
        List.length_nil] at checked
      obtain ⟨none, r, found, rfl⟩ := checked
      obtain rfl : count = 0 := by omega
      obtain rfl := Option.mem_unique last found
      refine .inr ⟨?_, rfl⟩
      cases present : j'.lossChain with
      | none =>
        have absent := reads.absent present
        rw [known] at absent
        cases absent
      | some rows =>
        rw [present, Option.getD_some] at empty
        rw [empty]
  · rintro ⟨empty, known⟩
    have reads : j'.ChainReads E trust (E.cell ⟨request, token, certificate⟩)
        ⟨request, token, certificate⟩ [] := by
      refine ⟨decoded, supersedes, ?_, ?_, ?_, ?_, ?_⟩
      · simp [empty]
      · simp [empty]
      · rw [empty]
        rfl
      · rcases known with none | ⟨_, some⟩
        · rw [none]
          rfl
        · simp [checkChainHead, some]
      · intro absent
        rcases known with none | ⟨present, _⟩
        · exact none
        · simp [present] at absent
    have format' : j'.ensureJournalFormat E = .ok () := by
      rw [same]
      exact format
    exact recovers_of_read format' ((readLossHistory_some loss').mpr ⟨_, [], reads, rfl⟩) rfl rfl

end Journal

/-- A loss that `decide_loss` accepted reads back as the effective one exactly if it
already was the effective one or the chain has room for it. -/
theorem loss_reads_back {chain : List LossRecord} {request : LossRequest} {token : String}
    {now : ℕ} {policy : LossPolicy} {c : CommittedLoss}
    (read : j.readLossHistory E trust = .ok chain)
    (h : j.decideLoss E request token now trust policy = .ok (j', c)) :
    c.request = request ∧ c.token = token ∧
      (j'.Recovers E trust c ↔
        (∃ old, chain.getLast? = some old ∧ old.request = request) ∨ j.ChainRoom request) := by
  obtain ⟨_, history, base, chain', journal, _, _, read', outcome⟩ := Journal.decideLoss_eq_ok h
  obtain rfl := ok_unique read read'
  obtain ⟨events, p, admits, _⟩ := Journal.read_eq_ok.mp journal
  obtain ⟨old, last, rfl, rfl, rfl, committed⟩ | ⟨new, decided⟩ := outcome
  · have recovers := Journal.retry_recovers admits.format read last committed
    simp only [Env.committedLoss, run_ok] at committed
    obtain ⟨_, _, rfl⟩ := committed
    exact ⟨rfl, rfl, iff_of_true recovers (.inl ⟨old, last, rfl⟩)⟩
  · obtain ⟨expected, certificate, found, next, bounded, issued, _, saved, rfl⟩ :=
      Journal.decideLossNew_eq_ok decided
    have verified : E.verifyLossHistorical token trust request = .ok certificate :=
      Env.verifyDocument_historical issued
    have notRetry : ¬∃ old, chain.getLast? = some old ∧ old.request = request := by
      rintro ⟨old, last, same⟩
      exact new old last same
    refine ⟨rfl, rfl, ?_⟩
    rw [or_iff_right notRetry]
    obtain ⟨root, _, _⟩ | ⟨s, prev, parent, supersedes, last, _, binds, _, rfl⟩ :=
      Journal.lossExpected_eq_ok found
    · rw [Journal.saveLoss, root] at saved
      rw [Journal.first_recovers admits.format root verified saved, Journal.ChainRoom, root]
    · rw [Journal.saveLoss, supersedes] at saved
      rw [Journal.superseding_recovers admits.format read last supersedes binds next bounded
        verified saved, Journal.ChainRoom, supersedes]

namespace Sample

def lossRecord (n : ℕ) : LossRecord := ⟨loss n, token .loss n, mark 1⟩

variable {n : ℕ}

theorem loss_valid (low : 2 ≤ n) (high : n < 60000) : (loss n).Valid := by
  have first : (loss 2).Valid := by decide +kernel
  have own : mark n ≠ zeroId := mark_ne_zero (by omega) (by omega)
  have replacement : mark (n + 1) ≠ zeroId := mark_ne_zero (by omega) (by omega)
  have survivor : mark (n + 1) ≠ mark 1 := fun same => by
    have := mark_inj (by omega) (by decide) same
    omega
  have lost : mark (n + 1) ≠ mark 2 := fun same => by
    have := mark_inj (by omega) (by decide) same
    omega
  obtain ⟨⟨_, authority, _, _, place⟩, rest⟩ := first.source
  refine ⟨.inr ⟨rfl, by simp [loss], fun d mem => ?_, fun s mem => ?_⟩,
    ⟨⟨own, authority, ?_, ?_, place⟩, rest⟩, first.survivor,
    ⟨replacement, replacement, survivor, replacement, lost, survivor, lost, survivor, ?_⟩⟩
  · obtain rfl := Option.some.inj mem
    exact ⟨by decide, .inl rfl⟩
  · simp only [loss, Option.mem_def, Option.ite_none_left_eq_some, Option.some.injEq] at mem
    rw [← mem.2]
    have one : mark 1 ≠ zeroId := by decide
    exact ⟨one, mark_ne_zero (by omega) (by omega), one, one⟩
  · exact Nat.lt_of_lt_of_le (by decide) low
  · exact high.trans (by decide)
  · exact first.replacement.2.2.2.2.2.2.2.2

theorem loss_verified (low : 2 ≤ n) (high : n < 60000) {now : Option ℕ} (early : ∀ t ∈ now, t < 10) :
    env.verifyDocument .loss (token .loss n) trusted (loss n) now = .ok (mark 1) :=
  verifyDocument_token .loss (by omega) high (ensure_eq_ok.mpr (loss_valid low high)) early

def completedRecord : Record where
  request := request 1
  token := token .transition 1
  acknowledgements := Function.update (Function.update (both false) 0 true) 1 true
  completion := some (mark 1)

theorem loss_based {j : Journal fun α => α} {history : History} (low : 2 ≤ n) (high : n < 60000)
    (scope : j.scope = Sample.scope) (head : history.head = some completedRecord)
    (revision : history.lastRevision = 1) :
    j.lossBase env history (loss n) trusted = .ok 1 := by
  have source : env.committed completedRecord trusted = .ok ⟨request 1, token .transition 1, mark 5,
      mark 1, completedRecord.acknowledgements, some (mark 1)⟩ := by decide +kernel
  have lost : lostIndex (request 1).participants (loss n) = .ok 1 := by
    have first : lostIndex (request 1).participants (loss 2) = .ok 1 := by decide +kernel
    exact first
  have apart : ∀ m ≤ 2, mark (n + 1) ≠ mark m := fun m small same => by
    have := mark_inj (by omega) (by omega) same
    omega
  have bound : Sample.scope.lossSource (loss n) (mark 1) (mark 5) (cut 1) (request 1).participants 1 =
      .ok () := by
    simp only [JournalScope.lossSource, unit_bind_eq_ok, ensure_eq_ok]
    exact ⟨by simp [loss, heading, Sample.scope], rfl, rfl, rfl, apart 1 (by decide), apart 2 (by decide)⟩
  have anchored : Journal.completedSource env history (loss n) = .ok (completedRecord, false) := by
    simp [Journal.completedSource, head, require, completedRecord]
  have kind : (loss n).kind = .completed := rfl
  simp only [Journal.lossBase, kind, Journal.lossFromCompleted, anchored, ok_bind, source,
    checked_ok, revision, scope]
  exact ⟨⟨rfl, by decide⟩, 1, lost, by simp, bound, trivial⟩

/-- The first loss and `n` that supersede it. -/
structure Chained (n : ℕ) (j : Journal fun α => α) : Prop where
  scope : j.scope = Sample.scope
  parent : j.parent = none
  journal : ∃ history, j.read env trusted = .ok history ∧ history.head = some completedRecord ∧
    history.lastRevision = 1
  rows : (j.lossChain.getD []).length = n
  read : j.readLossHistory env trusted = .ok ((List.range' 2 (n + 1)).map lossRecord)

theorem Chained.last (n : ℕ) :
    ((List.range' 2 (n + 1)).map lossRecord).getLast? = some (lossRecord (n + 2)) := by
  rw [List.getLast?_map, List.range'_concat]
  simp [Nat.add_comm]

theorem supersedes_previous (small : n < 50000) :
    env.supersedesPrevious ⟨mark 1, mark (n + 6), mark 1, mark 1⟩ (lossRecord (n + 2)) (loss (n + 3))
      ((List.range' 2 (n + 1)).map lossRecord) Retired.empty = .ok () := by
  simp only [Env.supersedesPrevious, unit_bind_eq_ok, ensure_eq_ok]
  refine ⟨⟨rfl, (tokenDigest_token ..).symm⟩, by simp [lossRecord, loss, heading, LossRequest.kind], by simp [Retired.empty], ?_⟩
  intro r mem
  obtain ⟨k, inside, rfl⟩ := List.mem_map.mp mem
  obtain ⟨i, below, rfl⟩ := List.mem_range'.mp inside
  have apart : mark (n + 3 + 1) ≠ mark (2 + 1 * i + 1) := fun same => by
    have := mark_inj (by omega) (by omega) same
    omega
  exact ⟨apart, apart, apart⟩

theorem saveChainRecord_succeeds {j : Journal fun α => α}
    (below : ∀ row ∈ j.lossChain.getD [], row.revision < r.request.revision) :
    ∃ j', j.saveChainRecord env r = .ok j' := by
  obtain ⟨marked, mark⟩ : ∃ marked, j.markJournalFormatTwo env = .ok marked := by
    cases stored : j.stored.marker with
    | some marker => exact ⟨j, by simp [Journal.markJournalFormatTwo, env, Env.parse, require, stored, maxScope]⟩
    | none =>
      exact ⟨_, by simp [Journal.markJournalFormatTwo, env, Env.parse, require, stored, maxScope]; rfl⟩
  have inserted := insertRow_last (env.row r.request.revision r) below
  simp only [Journal.saveChainRecord, checked_ok]
  exact ⟨_, by simp [env, maxRecord], marked, mark, _, inserted, rfl⟩

theorem Chained.decideLoss {j : Journal fun α => α} (chained : Chained n j) (small : n < 50000) :
    ∃ j', j.saveChainRecord env (lossRecord (n + 3)) = .ok j' ∧
      j.decideLoss env (loss (n + 3)) (token .loss (n + 3)) 0 trusted lossPolicy =
        .ok (j', ⟨loss (n + 3), token .loss (n + 3), mark 1, mark (n + 7)⟩) := by
  obtain ⟨history, journal, head, revision⟩ := chained.journal
  obtain ⟨_, empty⟩ | ⟨cell, first, rest, _, reads, same⟩ :=
    Journal.readLossHistory_cases chained.read
  · simp [List.range'] at empty
  have below := reads.below (same ▸ Chained.last n)
  obtain ⟨j', saved⟩ := saveChainRecord_succeeds (r := lossRecord (n + 3)) below
  refine ⟨j', saved, ?_⟩
  have verified : ∀ {now}, (∀ t ∈ now, t < 10) → env.verifyDocument .loss (token .loss (n + 3))
      trusted (loss (n + 3)) now = .ok (mark 1) := loss_verified (by omega) (by omega)
  have supersedes : (loss (n + 3)).supersedes = some ⟨mark 1, mark (n + 6), mark 1, mark 1⟩ := by
    simp [loss]
  have other : ((List.range' 2 (n + 1)).map lossRecord).getLast?.filter
      (fun old => old.request = loss (n + 3)) = none := by
    have apart : (lossRecord (n + 2)).request ≠ loss (n + 3) := fun same => by
      have := congrArg (·.revision) same
      simp [lossRecord, loss, heading] at this
    rw [Chained.last]
    simp [Option.filter, apart]
  have expected : j.lossExpected env 1 ((List.range' 2 (n + 1)).map lossRecord) (loss (n + 3))
      trusted lossPolicy = .ok (n + 2) := by
    simp only [Journal.lossExpected, supersedes, Chained.last, Journal.readParent, chained.parent,
      pure_eq, ok_bind, Option.map_none, Option.getD_none, supersedes_previous small, lossPolicy]
    rfl
  have issued : env.verifyLossIssuance (token .loss (n + 3)) trusted (loss (n + 3)) 0 =
      .ok (mark 1) := verified (by simp)
  have committed : env.committedLoss ⟨loss (n + 3), token .loss (n + 3), mark 1⟩ trusted =
      .ok ⟨loss (n + 3), token .loss (n + 3), mark 1, mark (n + 7)⟩ := by
    have historical : env.verifyLossHistorical (token .loss (n + 3)) trusted (loss (n + 3)) =
        .ok (mark 1) := verified (by simp)
    simp only [Env.committedLoss, historical, ok_bind, tokenDigest_token]
    rfl
  have written : j.saveLoss env ⟨loss (n + 3), token .loss (n + 3), mark 1⟩ = .ok j' := by
    simp only [Journal.saveLoss, supersedes]
    exact saved
  simp only [Journal.decideLoss, bind_eq_ok, ensure_eq_ok]
  refine ⟨(), ensure_eq_ok.mpr (loss_valid (by omega) (by omega)), (), ?_, history, journal, 1,
    loss_based (by omega) (by omega) chained.scope head revision, (), rfl, _, chained.read, ?_⟩
  · rw [token_size, maxToken]
    omega
  · simp only [other, Journal.decideLossNew, bind_eq_ok, ensure_eq_ok, checkedSucc_eq_ok, pure_inj]
    exact ⟨_, expected, _, ⟨by omega, rfl⟩, (), rfl, _, issued, (), rfl, (), rfl, (), rfl, _,
      written, _, committed, rfl⟩

theorem Chained.next {j j' : Journal fun α => α} (chained : Chained n j)
    (room : n < maxChainRows) (saved : j.saveChainRecord env (lossRecord (n + 3)) = .ok j') :
    Chained (n + 1) j' := by
  have small : n < 50000 := room.trans (by decide)
  have supersedes : (loss (n + 3)).supersedes = some ⟨mark 1, mark (n + 6), mark 1, mark 1⟩ := by
    simp [loss]
  have verified : env.verifyLossHistorical (token .loss (n + 3)) trusted (loss (n + 3)) =
      .ok (mark 1) := loss_verified (by omega) (by omega) (by simp)
  have read := Journal.superseding_read chained.read (Chained.last n) supersedes
    (supersedes_previous small) rfl (by show n + 2 + 1 < 2 ^ 64; omega) verified saved
    (chained.rows.trans_lt room)
  obtain ⟨_, empty⟩ | ⟨cell, first, rest, _, reads, same⟩ :=
    Journal.readLossHistory_cases chained.read
  · simp [List.range'] at empty
  obtain ⟨history, journal, facts⟩ := chained.journal
  obtain ⟨events, p, admits, layout, rfl⟩ := Journal.read_eq_ok.mp journal
  obtain ⟨_, marked, mark, kept⟩ :=
    Journal.saveChainRecord_eq_ok (reads.below (same ▸ Chained.last n)) saved
  have format : j'.ensureJournalFormat env = .ok () :=
    Journal.ensureJournalFormat_marked admits.format mark (by rw [kept]) (by rw [kept])
  subst kept
  refine ⟨chained.scope, chained.parent, ⟨_, ?_, facts⟩, ?_, ?_⟩
  · refine Journal.read_eq_ok.mpr ⟨events, p, ?_, ?_, rfl⟩
    · exact { admits with format := format }
    · exact { layout with }
  · simp [chained.rows]
  · rw [List.range'_concat, List.map_append, read]
    simp [lossRecord, Nat.add_comm]

/-- The journal after the first loss. -/
def lost : Journal fun α => α :=
  (completed.decideLoss env (loss 2) (token .loss 2) 0 trusted lossPolicy).toOption.elim completed
    Prod.fst

theorem decideLoss_lost : ∃ c,
    completed.decideLoss env (loss 2) (token .loss 2) 0 trusted lossPolicy = .ok (lost, c) := by
  obtain ⟨⟨_, c⟩, done⟩ := Option.isSome_iff_exists.mp (show (completed.decideLoss env (loss 2)
    (token .loss 2) 0 trusted lossPolicy).toOption.isSome by decide +kernel)
  rw [lost, done]
  exact ⟨c, toOption_eq_some.mp done⟩

theorem loss_reads_back_lost : ∃ c : CommittedLoss, c.request = loss 2 ∧ c.token = token .loss 2 ∧
    (lost.Recovers env trusted c ↔
      (∃ old, ([] : List LossRecord).getLast? = some old ∧ old.request = loss 2) ∨
        completed.ChainRoom (loss 2)) := by
  obtain ⟨c, decided⟩ := decideLoss_lost
  exact ⟨c, loss_reads_back (by decide +kernel) decided⟩

theorem lost_chained : Chained 0 lost := by
  have whole : (lost.read env trusted).toOption.map (fun h => (h.head, h.lastRevision)) =
      some (some completedRecord, 1) := by decide +kernel
  refine ⟨by decide +kernel, Option.isNone_iff_eq_none.mp (by decide +kernel), ?_,
    by decide +kernel, by decide +kernel⟩
  obtain ⟨history, read, facts⟩ := Option.map_eq_some_iff.mp whole
  obtain ⟨head, revision⟩ := Prod.mk.inj facts
  exact ⟨history, toOption_eq_some.mp read, head, revision⟩

/-- One accepted loss of the family. -/
def Loses (a b : Journal fun α => α) : Prop :=
  ∃ n c, a.decideLoss env (loss n) (token .loss n) 0 trusted lossPolicy = .ok (b, c)

theorem chained_reached (full : n ≤ maxChainRows) :
    ∃ j, Relation.ReflTransGen Loses completed j ∧ Chained n j := by
  induction n with
  | zero =>
    obtain ⟨c, decided⟩ := decideLoss_lost
    exact ⟨lost, .single ⟨2, c, decided⟩, lost_chained⟩
  | succ n ih =>
    obtain ⟨j, run, chained⟩ := ih (by omega)
    obtain ⟨j', saved, decided⟩ := chained.decideLoss (full.trans (by decide))
    exact ⟨j', run.tail ⟨n + 3, _, decided⟩, chained.next (by omega) saved⟩

/-- The writer takes one superseding loss more than the reader. -/
theorem loss_chain_overflow : ∃ j j' chain c, Relation.ReflTransGen Loses completed j ∧
    j.readLossHistory env trusted = .ok chain ∧
    j.decideLoss env (loss 4099) (token .loss 4099) 0 trusted lossPolicy = .ok (j', c) ∧
    ∀ chain', j'.readLossHistory env trusted ≠ .ok chain' := by
  obtain ⟨j, run, chained⟩ := chained_reached (n := maxChainRows) le_rfl
  obtain ⟨j', saved, decided⟩ := chained.decideLoss (by decide)
  refine ⟨j, j', _, _, run, chained.read, decided, fun chain' read' => ?_⟩
  have room := Journal.superseding_room chained.read (Chained.last _) rfl saved read'
  exact absurd chained.rows room.ne

end Sample

end TerrapiVault.Recovery
