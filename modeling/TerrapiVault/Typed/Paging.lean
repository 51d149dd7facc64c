import TerrapiVault.Maintenance.Certificates
import TerrapiVault.Maintenance.Restores
import TerrapiVault.Maintenance.Exclusion
import TerrapiVault.Replication.Paging
import TerrapiVault.Typed.Calls

/-! Reading the journal of a typed node page by page. Whatever writes the journal tables of such
a node renews the revision, draws the generation or raises the base, so no page is served under
a head from before. -/
namespace TerrapiVault.Maintenance

open Replication
open Recovery

variable {T : Type → Type} {E : Env T} {F C V R : Type} {host : Host F C V} {trust : Trust}
  {random : Bytes32}

theorem Node.validateRetained_structural {n : Node F C V} {h : Handle}
    (ok : n.validateRetained E host h trust = .ok ()) :
    h.prepared.plan.validateStructural E = .ok () := by
  obtain ⟨inspection, valid⟩ := validateRetained_pending ok
  simp only [validatePending, run_ok] at valid
  obtain ⟨marker, _, progress, _, _, _, plan, _, _, _, _, rfl⟩ := valid
  simp only [checkPlan, PairPlan.validateCertified, checked_ok] at plan
  exact plan.2.2.1.1

/-- A cut removes a row and so renews the revision, or it raises the base. -/
theorem Turn.drawn {j : Journal T} {n n' : Node F C V} {h h' : Handle} {kind : Kind}
    (turned : Turn E host trust j n h kind n' h') (draws : ∀ r, kind = .apply r → r = random) :
    n.store.Drawn random n'.store := by
  cases turned with
  | apply policy c fetched retained phase segments certified next row r head =>
    obtain rfl := draws r rfl
    have rises : Rises n.store.base (some (h.prepared.plan.localPlan h.role).checkpoint) := by
      have above :=
        (PairPlan.validateStructural_local (Node.validateRetained_structural retained) h.role).2
      rw [(Store.head_eq_ok head).1] at above
      cases base : n.store.base with
      | none => exact .inl ⟨rfl, by simp⟩
      | some b => exact .inr (above b base)
    by_cases kept : ∀ e ∈ n.store.log, (h.prepared.plan.localPlan h.role).checkpoint.sequence < e.sequence
    · refine .rises (if_pos kept) ?_ rises
      exact List.filter_eq_self.mpr fun e mem => decide_eq_true (kept e mem)
    · exact .renewed (if_neg kept)
  | finalize => exact .beside random _
  | _ => exact .refl random _

theorem Call.run_drawn {s s' : Site T F C V} {c : Call} (ran : c.run E host trust s = .ok s')
    (i : Fin 2) (draws : ∀ r, c.turn? = some (i, .apply r) → r = random) :
    (s.node i).store.Drawn random (s'.node i).store := by
  cases c.run_change ran with
  | prepare opened r fresh now writes named closed node written =>
    rcases (written i).2 with same | ⟨_, _, _, same⟩ <;> dsimp only <;> rw [same]
    · exact .refl random _
    · exact .beside random _
  | turn k h held kind named n' h' turned =>
    by_cases here : i = k
    · subst here
      have drawn := turned.drawn fun r same => draws r (same ▸ named)
      simpa [Site.put] using drawn
    · simpa [Site.put, Function.update_of_ne here] using Store.Drawn.refl random _
  | _ => exact .refl random _

namespace Node

variable {S : Staging F C V R} {n n' : File F C V R} {opened : Opened} {plan : PairPlan}
  {manifest : Manifest}

theorem saveCompaction_store {r : Compaction} (ok : n.saveCompaction E r = .ok n') :
    n'.store = n.store := by
  simp only [saveCompaction, run_ok] at ok
  obtain ⟨_, _, rfl⟩ := ok
  rfl

theorem compactionStep_drawn {target : Compaction.Phase}
    (ok : n.compactionStep E S opened random plan target = .ok n') :
    n.store.Drawn random n'.store := by
  simp only [compactionStep, run_ok, Unique.exists_iff] at ok
  obtain ⟨_, _, found, _, r, _, _, ok⟩ := ok
  split_ifs at ok
  · exact Except.ok.inj ok ▸ .refl random _
  · split at ok
    · exact saveCompaction_store ok ▸ .refl random _
    · exact saveCompaction_store ok ▸ .refl random _
    · obtain ⟨cut, compacted, saved⟩ := bind_eq_ok.mp ok
      simp only [compact, checked_ok] at compacted
      obtain ⟨_, checkpoint, _, _, head, _, _, _, publication, _, _, history, _, rows, _, after, _,
        _, rfl⟩ := compacted
      rw [saveCompaction_store saved]
      exact .renewed rfl
    · exact Except.ok.inj ok ▸ .refl random _
    · cases ok

theorem finishSnapshotInstalling_drawn {retain : Option Bytes32}
    (ok : n.finishSnapshotInstalling E S opened random manifest retain = .ok n') :
    n.store.Drawn random n'.store := by
  simp only [finishSnapshotInstalling, run_ok, Unique.exists_iff] at ok
  obtain ⟨_, _, ok⟩ := ok
  split at ok
  · simp only [run_ok] at ok
    obtain ⟨_, _, _, _, rfl⟩ := ok
    exact .refl random _
  · simp only [run_ok, Checked.ensure_eq_ok] at ok
    obtain ⟨stored, _, _, installed, _, free, after, _, _, rfl⟩ := ok
    exact .rises rfl rfl (.inl ⟨free, by simp⟩)

theorem cancelSnapshot_drawn (ok : n.cancelSnapshot E S opened random manifest = .ok n') :
    n.store.Drawn random n'.store := by
  simp only [cancelSnapshot, run_ok, Unique.exists_iff] at ok
  obtain ⟨_, _, _, _, _, _, _, ok⟩ := ok
  split_ifs at ok <;> simp only [run_ok] at ok
  · exact ok.2 ▸ .refl random _
  · obtain ⟨_, _, _, rfl⟩ := ok
    exact .kept rfl rfl rfl (.inr rfl)

end Node

end TerrapiVault.Maintenance

namespace TerrapiVault.Typed

open Replication
open Maintenance hiding Call Node

variable {C V : Type} {a : Access C V} {st st' : Tables C V} {random : Bytes32}

theorem pageRows_eq_ok {S : Schema C V SchemaId String} {bytes : ℕ}
    {rows page : List (Record C)} :
    pageRows S bytes rows = .ok page ↔ Store.pageEntries S bytes rows = .ok page := by
  induction rows generalizing bytes page with
  | nil => exact Iff.rfl
  | cons e rest ih =>
    rw [pageRows, Store.pageEntries, ensure_bind_eq_ok, ensure_bind_eq_ok]
    split
    · rfl
    · simp only [bind_eq_ok, ih]

theorem Access.journalPage_eq_ok {head : JournalHead SchemaId String} {after limit : ℕ}
    {page : JournalPage C SchemaId String} :
    a.journalPage st head after limit = .ok page ↔
      a.admission = .ok () ∧ st.journalPage a.schema a.identity head after limit = .ok page := by
  simp only [journalPage, Store.journalPage, pageCursor, checked_ok, pageRows_eq_ok,
    exists_and_left]
  exact and_left_comm

variable [DecidableEq C]

theorem Call.run_drawn {c : Call C} (ran : c.run a st random = .ok st') : st.Drawn random st' := by
  cases c with
  | prepare batch =>
    simp only [run, run_ok] at ran
    obtain ⟨⟨e, after⟩, prepared, rfl⟩ := ran
    obtain ⟨_, ⟨_, rfl⟩ | ⟨_, saved⟩⟩ := Access.prepare_eq_ok prepared
    · exact .refl random _
    · exact (Store.save_written saved).drawn
  | stage entry =>
    simp only [run, run_ok] at ran
    obtain ⟨⟨_, after⟩, staged, rfl⟩ := ran
    obtain ⟨_, _, rfl | saved⟩ := Access.stage_eq_ok staged
    · exact .refl random _
    · exact (Store.save_written saved).drawn
  | decide id =>
    simp only [run, Access.decide, run_ok] at ran
    obtain ⟨⟨_, _⟩, ⟨_, _, _, _, e, _, _, _, ran⟩, rfl⟩ := ran
    unfold Access.decideEntry at ran
    split_ifs at ran <;>
      simp only [run_ok] at ran
    · obtain ⟨_, _, saved, _, rfl⟩ := ran
      exact (Store.save_written saved).drawn
    · exact ran.2 ▸ .refl random _
  | apply decision =>
    simp only [run, Access.apply, run_ok] at ran
    obtain ⟨⟨_, _⟩, ⟨_, _, _, _, _, e, _, _, _, ran⟩, rfl⟩ := ran
    split_ifs at ran <;>
      simp only [Access.applyEntry, run_ok] at ran
    · obtain ⟨_, _, _, rfl⟩ := ran
      exact .refl random _
    · obtain ⟨_, verified, _, data, _, stored, saved, kept, keep, _, rfl⟩ := ran
      have first := (Store.Drawn.beside random st).trans (Store.save_written saved).drawn
      unfold Access.keepVerified at keep
      split at keep
      · simp only [run_ok] at keep
        obtain ⟨_, _, rfl⟩ := keep
        exact first.trans (.beside random _)
      · exact Except.ok.inj keep ▸ first
  | abort id =>
    simp only [run, Access.abort, run_ok] at ran
    obtain ⟨⟨_, _⟩, ⟨_, found, _, ran⟩, rfl⟩ := ran
    cases found with
    | none =>
      simp only [run_ok] at ran
      exact ran.2 ▸ .refl random _
    | some e =>
      simp only [Access.removeEntry, run_ok] at ran
      obtain ⟨_, ran⟩ := ran
      split_ifs at ran <;>
        simp only [run_ok] at ran
      · obtain ⟨_, _, _, _, rfl⟩ := ran
        exact .renewed rfl
      · obtain ⟨_, _, _, _, rfl⟩ := ran
        exact .renewed rfl
  | confirmCheckpoint expected =>
    simp only [run, Access.confirmCheckpoint, run_ok, Prod.exists] at ran
    obtain ⟨_, ⟨_, _, _, _, _, _, _, rfl⟩, rfl⟩ := ran
    exact .beside random st

section

variable {T : Type → Type} {F R : Type}

/-- One transaction on the journal tables of a typed node, as its functions make it; the rest of
the file is any. `begin_snapshot` and `prepare_compaction` write the read admission alone. -/
inductive Changes (E : Recovery.Env T) (S : Staging F C V R) (random : Bytes32) :
    Tables C V → Tables C V → Prop
  | marked {st : Tables C V} (readiness : Option Prefix) :
    Changes E S random st { st with readiness := readiness }
  | called {st st' : Tables C V} (a : Access C V) (c : Call C)
    (ran : c.run a st random = .ok st') : Changes E S random st st'
  | maintained {s s' : Site T (Slots F R) C V} (trust : Recovery.Trust) (c : Maintenance.Call)
    (ran : c.run E S.toHost trust s = .ok s') (i : Fin 2)
    (draws : ∀ r, c.turn? = some (i, .apply r) → r = random) :
    Changes E S random (s.node i).store (s'.node i).store
  | compacted {n n' : File F C V R} (opened : Opened) (plan : PairPlan) (target : Compaction.Phase)
    (ran : n.compactionStep E S opened random plan target = .ok n') :
    Changes E S random n.store n'.store
  | restored {n n' : File F C V R} (opened : Opened) (manifest : Manifest)
    (retain : Option Bytes32)
    (ran : n.finishSnapshotInstalling E S opened random manifest retain = .ok n') :
    Changes E S random n.store n'.store
  | cancelled {n n' : File F C V R} (opened : Opened) (manifest : Manifest)
    (ran : n.cancelSnapshot E S opened random manifest = .ok n') :
    Changes E S random n.store n'.store

/-- The tables after one transaction, with a value drawn after the head was read. -/
def Later (E : Recovery.Env T) (S : Staging F C V R) (head : Head) (st st' : Tables C V) : Prop :=
  ∃ random, head.Fresh random ∧ Changes E S random st st'

theorem Later.drawn {E : Recovery.Env T} {S : Staging F C V R} {head : Head}
    (later : Later E S head st st') : ∃ random, head.Fresh random ∧ st.Drawn random st' := by
  obtain ⟨random, fresh, changes⟩ := later
  refine ⟨random, fresh, ?_⟩
  cases changes with
  | marked => exact .beside random _
  | called a c ran => exact Call.run_drawn ran
  | maintained trust c ran i draws => exact Maintenance.Call.run_drawn ran i draws
  | compacted opened plan target ran => exact Node.compactionStep_drawn ran
  | restored opened manifest retain ran => exact Node.finishSnapshotInstalling_drawn ran
  | cancelled opened manifest ran => exact Node.cancelSnapshot_drawn ran

end

end TerrapiVault.Typed

namespace TerrapiVault.Replication

open Relation (ReflTransGen)
open Typed (Access Record)
open Maintenance (SchemaId Tables)

/-- A reader that starts at the base gets the whole journal above it in valid pages, and once
the journal has changed every page under the old head is refused, on both kinds of node. -/
theorem journal_paging :
    (∀ {D : Type} [DecidableEq D] (X : Engine D) {identity : Identity ℕ} (node : Node D)
      (h : History X.schema identity) (tail : Option (RefEntry D)),
      node.Sound h tail → ∀ head, node.journalHead = .ok head →
      (∀ limits : List ℕ, (∀ limit ∈ limits, 0 < limit ∧ limit ≤ maxPageEntries) →
        ∃ pages last, readPages (node.journalPage X head) (baseFloor head.base) limits =
            .ok (pages, last) ∧
          Paged X.schema head (baseFloor head.base)
            (node.store.log.filter fun e => baseFloor head.base < e.sequence) limits pages last) ∧
      ∀ middle later, ReflTransGen (Node.Later X head) node middle →
        ReflTransGen (Node.Later X head) middle later →
        middle.store.log ≠ node.store.log ∨ middle.store.base ≠ node.store.base ∨
          middle.store.generation ≠ node.store.generation →
        ∀ after limit page, later.journalPage X head after limit ≠ .ok page) ∧
    ∀ {T : Type → Type} (E : Recovery.Env T) {F C V R : Type} [DecidableEq C]
      (S : Maintenance.Staging F C V R) (a : Access C V) (st : Tables C V)
      (h : History a.schema a.identity) (tail : Option (Record C)),
      st.Represents h tail → ∀ head, st.head a.identity = .ok head →
      (a.admission = .ok () →
        ∀ limits : List ℕ, (∀ limit ∈ limits, 0 < limit ∧ limit ≤ maxPageEntries) →
        ∃ pages last, readPages (a.journalPage st head) (baseFloor head.base) limits =
            .ok (pages, last) ∧
          Paged a.schema head (baseFloor head.base)
            (st.log.filter fun e => baseFloor head.base < e.sequence) limits pages last) ∧
      ∀ middle later, ReflTransGen (Typed.Later E S head) st middle →
        ReflTransGen (Typed.Later E S head) middle later →
        middle.log ≠ st.log ∨ middle.base ≠ st.base ∨ middle.generation ≠ st.generation →
        ∀ (b : Access C V) after limit page, b.journalPage later head after limit ≠ .ok page := by
  constructor
  · intro D _ X identity node h tail sound head found
    rw [Node.journalHead, sound.identity_eq] at found
    refine ⟨fun limits allowed => ?_, fun middle later early late changed after limit page => ?_⟩
    · have page : node.journalPage X head = node.store.journalPage X.schema identity head := by
        rw [← sound.identity_eq]
        rfl
      rw [page]
      exact sound.store.paged_from_base found allowed
    · exact (Store.moved_after (fun _ _ => Node.Later.drawn) found early late changed).refused
        after limit page
  · intro T E F C V R _ S a st h tail rep head found
    refine ⟨fun admitted limits allowed => ?_, fun middle later early late changed b after limit
      page read => ?_⟩
    · obtain ⟨pages, last, read, paged⟩ := rep.paged_from_base found allowed
      exact ⟨pages, last, readPages_of (fun _ _ _ one =>
        Access.journalPage_eq_ok.mpr ⟨admitted, one⟩) read, paged⟩
    · exact (Store.moved_after (fun _ _ => Typed.Later.drawn) found early late changed).refused
        after limit page (Access.journalPage_eq_ok.mp read).2

/-- The size check passes an entry in every state or in none. What it passes fits a page in
every state: a page that starts there holds it, a page too full for it ends before it. The
check is made of every entry that `prepare` builds and of every entry that `stage` takes. -/
theorem entry_pageable :
    (∀ {C V I D : Type} (S : Schema C V I D) (e : Entry C I D),
      (∀ state, checkEntrySize S (e.withState state) = .ok () ↔ checkEntrySize S e = .ok ()) ∧
      (checkEntrySize S e = .ok () → ∀ state, (e.withState state).size S + 1 ≤ maxPageBytes ∧
        ∀ bytes rows, Store.pageEntries S bytes (e.withState state :: rows) =
          if bytes ≠ 0 ∧ maxPageBytes < bytes + (e.withState state).size S + 1 then .ok []
          else do
            let rest ← Store.pageEntries S (bytes + (e.withState state).size S + 1) rows
            pure (e.withState state :: rest))) ∧
    (∀ {D : Type} [DecidableEq D] (X : Engine D) (node : Node D) (random : Bytes32),
      (∀ batch e node', node.store.byOperation X.schema batch.operationId = .ok none →
        node.prepare X batch random = .ok (e, node') → checkEntrySize X.schema e = .ok ()) ∧
      ∀ entry r, node.stage X entry random = .ok r → checkEntrySize X.schema entry = .ok ()) ∧
    ∀ {C V : Type} [DecidableEq C] (a : Access C V) (st : Tables C V)
      (random : Bytes32),
      (∀ batch e st', st.byOperation a.schema batch.operationId = .ok none →
        a.prepare st batch random = .ok (e, st') → checkEntrySize a.schema e = .ok ()) ∧
      ∀ entry r, a.stage st entry random = .ok r → checkEntrySize a.schema entry = .ok () := by
  refine ⟨fun S e => ⟨fun state => by rw [checkEntrySize_withState], fun fits state => ?_⟩,
    fun X node random => ⟨fun batch e node' fresh prepared => ?_, fun entry r staged => ?_⟩,
    fun a st random => ⟨fun batch e st' fresh prepared => ?_, fun entry r staged => ?_⟩⟩
  · have small := size_lt_of_checkEntrySize ((checkEntrySize_withState S e state).trans fits)
    refine ⟨small, fun bytes rows => ?_⟩
    rw [Store.pageEntries, ensure_of small, ok_bind]
    by_cases full : maxPageBytes < bytes + (e.withState state).size S + 1
    · rw [if_pos full, if_pos ⟨by omega, full⟩]
      rfl
    · rw [if_neg full, if_neg fun both => full both.2]
  · exact ((Node.prepare_eq_ok prepared).2.resolve_left fun known => known.1 fresh).1
  · exact (Node.stage_eq_ok staged).1
  · exact ((Access.prepare_eq_ok prepared).2.resolve_left fun known => known.1 fresh).1
  · exact (Access.stage_eq_ok staged).2.1

namespace Sample

open Maintenance (File Staging)
open Maintenance.Sample (siteEnv siteHost schema identity stateAt zeros)
open Recovery.Sample (mark)

def quiet (role : Role) : Node Term := Node.create role pairIdentity (draw 0) (draw 0)

/-- A primary that has prepared one place. -/
def placed : Node Term := (Call.prepare (placeBatch "a")).after engine (quiet .primary) (draw 1)

def placedHead : JournalHead ℕ Term := ⟨none, pairIdentity, draw 1, draw 0, 1⟩

def staging : Staging Unit Unit Unit Unit where
  toHost := siteHost
  recoveryAdmission _ := .ok ()
  manifestDigest _ := zeros
  encodeRows _ := .ok ()
  receiptFormat _ := .ok 1
  installLedger := .ok
  progress _ := .ok none
  beginRows _ _ := .ok
  receiveRows _ _ := .ok
  finishRows _ files data := .ok (files, data)
  staged _ := false
  discard := id

def pairPlan (role : Role) : Maintenance.CompactionPlan :=
  { Maintenance.Sample.nodePlan 1 role with membership := none, recoveryAnchor := none }

def compaction : Maintenance.Compaction :=
  ⟨⟨mark 1, pairPlan .primary, pairPlan .secondary⟩, .decided⟩

/-- A primary whose pair has decided to compact its one entry. -/
def compacting : File Unit Unit Unit Unit :=
  { Maintenance.Sample.node .primary with
    segments := ⟨2, some (some (stateAt 0)), some [], none, none⟩
    files := ⟨some compaction, none, [], none, ()⟩ }

def reader : Access Unit Unit :=
  ⟨schema, identity, .primary, .ok (), .ok (), fun _ _ => .ok ()⟩

def written : History schema identity where
  origin := ⟨0, zeros, zeros⟩
  imported := []
  entries := [Maintenance.Sample.entry]
  origin_lt := by decide
  numbered := trivial
  imported_length := rfl
  chained := ⟨⟨rfl, rfl, by decide, rfl, by decide, rfl, by decide⟩, trivial⟩
  applied := by decide
  distinct := by decide

theorem compacting_represents : compacting.store.Represents written none where
  log_eq := rfl
  receipts_eq := rfl
  pending := by simp
  next := by simp
  base := ⟨by decide, by decide, rfl⟩
  data := rfl

set_option maxRecDepth 10000 in
/-- Each kind of node is read in two pages. Then the one decides its entry and the other one
compacts, and the old head reads nothing more. -/
theorem journal_paging_prepared :
    (∃ pages, readPages (placed.journalPage engine placedHead) 0 [1, 32] = .ok (pages, 1) ∧
      pages.flatMap (·.entries) = placed.store.log ∧
      ∀ after limit page, ((Call.decide "a").after engine placed (draw 2)).journalPage engine
        placedHead after limit ≠ .ok page) ∧
    ∃ head pages n', readPages (reader.journalPage compacting.store head) 0 [1, 32] = .ok (pages, 1) ∧
      pages.flatMap (·.entries) = compacting.store.log ∧
      compacting.compactionStep siteEnv staging ⟨none, none⟩ (mark 9) compaction.plan .applied =
        .ok n' ∧
      ∀ after limit page, reader.journalPage n'.store head after limit ≠ .ok page := by
  constructor
  · have supported : pairIdentity.schema = 1 ∧ 0 < pairIdentity.epoch := by decide
    obtain ⟨h, tail, sound⟩ : ∃ (h : History engine.schema pairIdentity) (tail : Option (RefEntry Term)),
        placed.Sound h tail :=
      (Node.create_sound engine .primary supported (draw 0) (draw 0)).after trivial
    have paging := journal_paging.1 engine placed h tail sound placedHead (by decide)
    obtain ⟨pages, last, read, paged⟩ := paging.1 [1, 32] (by decide)
    obtain ⟨rfl, all⟩ := paged.complete (by decide)
    refine ⟨pages, read, all.trans (by decide), ?_⟩
    refine paging.2 _ _ (.single ⟨.decide "a", draw 2, ⟨by decide, by decide⟩, rfl⟩) .refl (.inl ?_)
    decide
  · have steps : (compacting.compactionStep siteEnv staging ⟨none, none⟩ (mark 9) compaction.plan
        .applied).toOption.any (·.store.log = []) = true := by decide +kernel
    obtain ⟨n', ran, cut⟩ := Maintenance.Sample.exists_of_any steps
    have paging := journal_paging.2 siteEnv staging reader compacting.store written none
      compacting_represents _ compacting_represents.head_eq
    obtain ⟨pages, last, read, paged⟩ := paging.1 rfl [1, 32] (by decide)
    obtain ⟨rfl, all⟩ := paged.complete (by decide)
    refine ⟨_, pages, n', read, all.trans (by decide), ran, ?_⟩
    refine paging.2 _ _ (.single ⟨mark 9, ⟨by decide, by decide⟩, .compacted _ _ _ ran⟩) .refl
      (.inl ?_) reader
    rw [of_decide_eq_true cut]
    decide

/-- The secondary stages the entry that the primary prepares for a place, and a page holds it
once it is applied. -/
theorem entry_pageable_placed : ∃ e node r,
    (quiet .primary).prepare engine (placeBatch "a") (draw 1) = .ok (e, node) ∧
      (quiet .secondary).stage engine e (draw 1) = .ok r ∧
      checkEntrySize engine.schema e = .ok () ∧
      (e.withState .applied).size engine.schema + 1 ≤ maxPageBytes := by
  have agreed : (do
      let (e, node) ← (quiet .primary).prepare engine (placeBatch "a") (draw 1)
      let r ← (quiet .secondary).stage engine e (draw 1)
      pure (e, node, r)).toOption.any (fun _ => true) = true := by decide +kernel
  obtain ⟨⟨e, node, r⟩, both, _⟩ := Maintenance.Sample.exists_of_any agreed
  simp only [run_ok, Prod.exists] at both
  obtain ⟨e, node, prepared, r, staged, -⟩ := both
  have fits := (entry_pageable.2.1 engine (quiet .primary) (draw 1)).1 _ _ _ rfl prepared
  exact ⟨e, node, _, prepared, staged, fits, ((entry_pageable.1 engine.schema e).2 fits .applied).1⟩

end Sample

end TerrapiVault.Replication
