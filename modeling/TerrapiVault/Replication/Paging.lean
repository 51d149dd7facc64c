import TerrapiVault.Replication.TransferSteps
import TerrapiVault.Replication.Sample
import Mathlib.Logic.Relation

/-! Reading a journal page by page under one head. Pages of an unchanged journal concatenate
to its entries above the base; after any change the head is refused for good. -/
namespace TerrapiVault.Replication

variable {C V I D : Type}

/-- A reader: the cursor moves to the last sequence of each page. -/
def readPages (page : ℕ → ℕ → Result (JournalPage C I D)) :
    ℕ → List ℕ → Result (List (JournalPage C I D) × ℕ)
  | after, [] => pure ([], after)
  | after, limit :: rest => do
    let p ← page after limit
    let (pages, last) ← readPages page (p.entries.getLast?.elim after Entry.sequence) rest
    pure (p :: pages, last)

variable {limits : List ℕ} {S : Schema C V I D} {identity : Identity I}

theorem readPages_of {page other : ℕ → ℕ → Result (JournalPage C I D)}
    (weaker : ∀ after limit p, page after limit = .ok p → other after limit = .ok p) {after : ℕ}
    {r : List (JournalPage C I D) × ℕ} (read : readPages page after limits = .ok r) :
    readPages other after limits = .ok r := by
  induction limits generalizing after r with
  | nil => exact read
  | cons limit rest ih =>
    simp only [readPages, run_ok] at read ⊢
    obtain ⟨p, first, more, others, same⟩ := read
    exact ⟨p, weaker after limit p first, more, ih others, same⟩

/-! A journal that moved on. -/

/-- A value drawn after the head was read differs from the two it names. -/
def JournalHead.Fresh (head : JournalHead I D) (random : Bytes32) : Prop :=
  random ≠ head.revision ∧ random ≠ head.readGeneration

namespace Store

/-- The tables a head was read from, and what tells other tables from them. -/
def Same (st st' : Store C V I D) : Prop :=
  st'.log = st.log ∧ st'.base = st.base ∧ st'.generation = st.generation ∧
    st'.revision = st.revision

def Moved (head : JournalHead I D) (st : Store C V I D) : Prop :=
  st.revision ≠ head.revision ∨ Rises head.base st.base ∨
    st.base = head.base ∧ st.generation ≠ head.readGeneration

variable {st st' start : Store C V I D} {head : JournalHead I D} {random : Bytes32}

theorem head_eq_ok (found : st.head identity = .ok head) : head.base = st.base ∧
    head.revision = st.revision ∧ head.readGeneration = st.generation := by
  simp only [Store.head, run_ok] at found
  obtain ⟨_, _, _, _, _, rfl⟩ := found
  exact ⟨rfl, rfl, rfl⟩

theorem Drawn.moved (drawn : st.Drawn random st') (fresh : head.Fresh random)
    (moved : st.Moved head) : st'.Moved head := by
  cases drawn with
  | renewed revision => exact .inl (revision ▸ fresh.1)
  | rises revision log rises =>
    rcases moved with other | more | ⟨same, _⟩
    · exact .inl (revision ▸ other)
    · exact .inr (.inl (more.trans rises))
    · exact .inr (.inl (same ▸ rises))
  | kept revision log base generation =>
    rcases moved with other | more | ⟨same, other⟩
    · exact .inl (revision ▸ other)
    · exact .inr (.inl (base ▸ more))
    · exact .inr (.inr ⟨base.trans same, generation.elim (· ▸ other) (· ▸ fresh.2)⟩)

theorem Drawn.same_or_moved (drawn : st.Drawn random st') (fresh : head.Fresh random)
    (found : start.head identity = .ok head) (same : start.Same st) :
    start.Same st' ∨ st'.Moved head := by
  obtain ⟨base, revision, generation⟩ := head_eq_ok found
  cases drawn with
  | renewed done => exact .inr (.inl (done ▸ fresh.1))
  | rises _ _ rises => exact .inr (.inr (.inl (by rwa [base, ← same.2.1])))
  | kept revision' log base' generation' =>
    have old := base'.trans same.2.1
    rcases generation' with kept | new
    · exact .inl ⟨log.trans same.1, old, kept.trans same.2.2.1, revision'.trans same.2.2.2⟩
    · exact .inr (.inr (.inr ⟨old.trans base.symm, new ▸ fresh.2⟩))

theorem Moved.refused [DecidableEq I] [DecidableEq D] (moved : st.Moved head) (after limit : ℕ)
    (page : JournalPage C I D) : st.journalPage S identity head after limit ≠ .ok page := by
  intro ok
  simp only [journalPage, checked_ok] at ok
  obtain ⟨_, actual, found, rfl, _⟩ := ok
  obtain ⟨base, revision, generation⟩ := head_eq_ok found
  rcases moved with other | rises | ⟨_, other⟩
  · exact other revision.symm
  · exact rises.ne base
  · exact other generation.symm

section

variable {σ : Type} {step : σ → σ → Prop} {store : σ → Store C V I D} {s m t : σ}
  (drawn : ∀ a b, step a b → ∃ random, head.Fresh random ∧ (store a).Drawn random (store b))

include drawn

theorem moved_stays (late : Relation.ReflTransGen step m t) (moved : (store m).Moved head) :
    (store t).Moved head := by
  induction late with
  | refl => exact moved
  | tail _ one ih =>
    obtain ⟨random, fresh, drawn⟩ := drawn _ _ one
    exact drawn.moved fresh ih

theorem same_or_moved (found : (store s).head identity = .ok head)
    (early : Relation.ReflTransGen step s m) :
    (store s).Same (store m) ∨ (store m).Moved head := by
  induction early with
  | refl => exact .inl ⟨rfl, rfl, rfl, rfl⟩
  | tail _ one ih =>
    obtain ⟨random, fresh, drawn⟩ := drawn _ _ one
    rcases ih with same | moved
    · exact drawn.same_or_moved fresh found same
    · exact .inr (drawn.moved fresh moved)

theorem moved_after (found : (store s).head identity = .ok head)
    (early : Relation.ReflTransGen step s m) (late : Relation.ReflTransGen step m t)
    (changed : (store m).log ≠ (store s).log ∨ (store m).base ≠ (store s).base ∨
      (store m).generation ≠ (store s).generation) : (store t).Moved head := by
  refine moved_stays drawn late ((same_or_moved drawn found early).resolve_left fun same => ?_)
  rcases changed with log | base | generation
  · exact log same.1
  · exact base same.2.1
  · exact generation same.2.2.1

end

end Store

/-! A journal that stays. -/

/-- What a reader gets from the rows above its cursor: valid pages with progress, which
concatenate to the rows it passed, and all rows once there were enough pages. -/
structure Paged (S : Schema C V I D) [DecidableEq I] [DecidableEq D] (head : JournalHead I D)
    (after : ℕ) (rows : List (Entry C I D)) (limits : List ℕ) (pages : List (JournalPage C I D))
    (last : ℕ) : Prop where
  valid : ∀ x ∈ pages.zip limits, x.1.validate S head x.1.after x.2 = .ok ()
  progress : ∀ p ∈ pages, p.after < head.length → p.entries ≠ []
  entries : pages.flatMap (·.entries) = rows.take (last - after)
  complete : head.length - after ≤ limits.length →
    last = head.length ∧ pages.flatMap (·.entries) = rows

variable [DecidableEq I] [DecidableEq D]

theorem Store.Represents.paged {st : Store C V I D} {h : History S identity}
    {tail : Option (Entry C I D)} (rep : st.Represents h tail) {head : JournalHead I D}
    (found : st.head identity = .ok head)
    (allowed : ∀ limit ∈ limits, 0 < limit ∧ limit ≤ maxPageEntries) {after : ℕ}
    (low : baseFloor st.base ≤ after) (high : after ≤ head.length) :
    ∃ pages last, readPages (st.journalPage S identity head) after limits = .ok (pages, last) ∧
      after ≤ last ∧ Paged S head after (st.log.drop (after - h.origin.sequence)) limits pages last := by
  have origin := rep.base.origin_le
  have total := rep.log_length
  have length : head.length = h.length + tail.toList.length := by
    rw [rep.head_eq] at found
    rw [← Except.ok.inj found]
  induction limits generalizing after with
  | nil =>
    refine ⟨[], after, rfl, Nat.le_refl _, by simp, by simp, by simp, fun enough => ?_⟩
    have done : after = head.length := by
      rw [List.length_nil] at enough
      omega
    refine ⟨done, (List.drop_eq_nil_of_le ?_).symm⟩
    omega
  | cons limit rest ih =>
    have bound := allowed limit (List.mem_cons_self ..)
    obtain ⟨k, -, progress, read, valid⟩ :=
      rep.journalPage_eq found bound.1 bound.2 low (length ▸ high)
    generalize rowsEq : st.log.drop (after - h.origin.sequence) = rows at read valid
    have count : rows.length = head.length - after := by
      rw [← rowsEq, List.length_drop]
      omega
    have from_ : Table.Consecutive Entry.sequence after rows := by
      have shifted := rep.consecutive.drop (n := after - h.origin.sequence) (by omega)
      rwa [rowsEq, Nat.add_sub_cancel' (by omega)] at shifted
    -- The page holds the first `min k` rows, so the cursor moves by their number.
    have cursor : (rows.take k).getLast?.elim after Entry.sequence = after + min k rows.length := by
      have front := (Table.Consecutive.append.mp ((List.take_append_drop k rows).symm ▸ from_)).1
      rw [front.last_key, List.length_take]
    have next : st.log.drop (after + min k rows.length - h.origin.sequence) =
        rows.drop (min k rows.length) := by
      rw [← rowsEq, List.drop_drop]
      congr 1
      omega
    obtain ⟨pages, last, readRest, above, paged⟩ :=
      ih (fun l mem => allowed l (List.mem_cons_of_mem _ mem))
        (show baseFloor st.base ≤ after + min k rows.length by omega) (by omega)
    rw [next] at paged
    have taken : rows.take k = rows.take (min k rows.length) := by
      rw [← List.take_take, List.take_length]
    refine ⟨⟨head, after, rows.take k⟩ :: pages, last, ?_, by omega, ?_, ?_, ?_, fun enough => ?_⟩
    · rw [readPages, read, ok_bind, cursor, readRest]
      rfl
    · intro x mem
      rcases List.mem_cons.mp mem with rfl | later
      · exact valid
      · exact paged.valid x later
    · intro p mem more
      rcases List.mem_cons.mp mem with rfl | later
      · have some := progress (length ▸ more)
        intro none
        have size := congrArg List.length none
        rw [List.length_take, List.length_nil] at size
        change after < head.length at more
        omega
      · exact paged.progress p later more
    · rw [List.flatMap_cons, paged.entries, taken, ← List.take_add]
      congr 1
      omega
    · have room : head.length - (after + min k rows.length) ≤ rest.length := by
        rw [List.length_cons] at enough
        by_cases more : after < head.length
        · have some := progress (length ▸ more)
          omega
        · omega
      obtain ⟨final, all⟩ := paged.complete room
      refine ⟨final, ?_⟩
      rw [List.flatMap_cons, all, taken, List.take_append_drop]

theorem Store.Represents.paged_from_base {st : Store C V I D} {h : History S identity}
    {tail : Option (Entry C I D)} (rep : st.Represents h tail) {head : JournalHead I D}
    (found : st.head identity = .ok head)
    (allowed : ∀ limit ∈ limits, 0 < limit ∧ limit ≤ maxPageEntries) :
    ∃ pages last, readPages (st.journalPage S identity head) (baseFloor head.base) limits =
        .ok (pages, last) ∧
      Paged S head (baseFloor head.base)
        (st.log.filter fun e => baseFloor head.base < e.sequence) limits pages last := by
  have shape := found
  rw [rep.head_eq] at shape
  obtain rfl := Except.ok.inj shape
  have high := rep.base.le_length
  obtain ⟨pages, last, read, -, paged⟩ := rep.paged found allowed (Nat.le_refl _)
    (by change _ ≤ h.length + _; omega)
  rw [rep.consecutive.filter_gt]
  exact ⟨pages, last, read, paged⟩

/-! The calls of a reference node. -/

section Reference

variable {X : Engine D} {node node' : Node D} {random : Bytes32}

theorem Node.replayHistory_drawn {scope : Identity ℕ} {entries : List (RefEntry D)}
    {count : ℕ} {st st' : RefStore D}
    (ok : replayHistory X scope random count entries st = .ok st') : st.Drawn random st' := by
  induction entries generalizing count st with
  | nil =>
    obtain rfl := Except.ok.inj ok
    exact .refl random st
  | cons e rest ih =>
    simp only [replayHistory, run_ok] at ok
    obtain ⟨_, _, _, data, _, written, wrote, stored, inserted, ok⟩ := ok
    exact (((Store.Drawn.beside random st).trans (Store.write_written wrote).drawn).trans
      (Store.insertReceipt_written inserted).drawn).trans (ih ok)

theorem Node.replaySnapshot_drawn {scope : Identity ℕ} {entries : List (RefEntry D)}
    {count bytes total size : ℕ} {previous : D} {st st' : RefStore D}
    (ok : replaySnapshot X scope random count bytes previous entries st = .ok (total, size, st')) :
    st.Drawn random st' := by
  induction entries generalizing count bytes previous st with
  | nil =>
    simp only [replaySnapshot, run_ok] at ok
    exact ok.2.2 ▸ .refl random st
  | cons e rest ih =>
    simp only [replaySnapshot, run_ok] at ok
    obtain ⟨_, _, _, data, _, stored, saved, ok⟩ := ok
    exact ((Store.Drawn.beside random st).trans (Store.save_written saved).drawn).trans (ih ok)

theorem Call.Outcome.drawn {c : Call D} (outcome : c.Outcome X node random node') :
    node.store.Drawn random node'.store := by
  cases outcome with
  | journal _ _ _ drawn => exact drawn
  | applied _ _ _ _ _ _ _ written keep =>
    have saved := (Store.Drawn.beside random node.store).trans written.drawn
    unfold Node.keepVerified at keep
    split at keep
    · simp only [Store.advanceReadiness, run_ok] at keep
      obtain ⟨_, _, rfl⟩ := keep
      exact saved.trans (.beside random _)
    · exact Except.ok.inj keep ▸ saved
  | confirmed => exact .beside random _
  | installed _ _ _ _ _ replayed =>
    exact (Node.replayHistory_drawn replayed).trans (.beside random _)
  | snapshotFilled _ _ _ _ _ replayed =>
    exact (Node.replaySnapshot_drawn replayed).trans (.beside random _)
  | materializedFilled _ _ _ _ empty inserted =>
    obtain ⟨data, receipts, rfl, -⟩ := Node.insertRows_ok inserted
    exact .rises rfl rfl (.inl ⟨empty.2.2.2.2, by simp⟩)
  | quarantined => exact .kept rfl rfl rfl (.inr rfl)
  | snapshotBegun => exact .kept rfl rfl rfl (.inr rfl)
  | materializedBegun => exact .kept rfl rfl rfl (.inr rfl)
  | _ => exact .refl random _

/-- A node after one call, made with a value drawn after the head was read. -/
def Node.Later (X : Engine D) (head : JournalHead ℕ D) (node node' : Node D) : Prop :=
  ∃ (c : Call D) (random : Bytes32), head.Fresh random ∧ c.after X node random = node'

theorem Node.Later.drawn {head : JournalHead ℕ D} (later : node.Later X head node') :
    ∃ random, head.Fresh random ∧ node.store.Drawn random node'.store := by
  obtain ⟨c, random, fresh, rfl⟩ := later
  refine ⟨random, fresh, ?_⟩
  exact Call.after_of_outcome (P := fun n => node.store.Drawn random n.store) (.refl random _)
    fun _ outcome => outcome.drawn

end Reference

end TerrapiVault.Replication
