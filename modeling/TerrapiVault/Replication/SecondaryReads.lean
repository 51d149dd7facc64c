import TerrapiVault.Replication.CommittedViews

/-! Reads on a secondary while its operator quarantines it, restores it and moves its
base at any time between the coordinator's calls. Nothing is assumed about the
tables of the secondary: the marker of read admission is all that is followed. -/
namespace TerrapiVault.Replication

open CrashLogic

variable {D : Type}

namespace Call

/-- The calls an operator makes on a secondary. The write path and the confirmation
of checkpoints belong to the coordinator. -/
def Operator : Call D → Prop
  | .prepare _ | .stage _ | .decide _ | .apply _ | .abort _ | .confirmCheckpoint _
  | .confirmGeneration .. => False
  | _ => True

/-- A call passes on only what the primary has committed to. -/
def Backed (X : Engine D) (entries : List (RefEntry D)) : Call D → Prop
  | .apply decision => ∃ e ∈ entries, e.digest = decision.digest
  | .confirmCheckpoint cp | .confirmGeneration cp _ => Shown X entries cp.viewDigest
  | _ => True

variable {X : Engine D} {entries more : List (RefEntry D)} {c : Call D}

theorem Operator.backed (operator : c.Operator) : c.Backed X entries := by
  cases c <;> trivial

theorem Backed.mono (backed : c.Backed X entries) (grows : entries <+: more) :
    c.Backed X more := by
  cases c with
  | apply decision =>
    obtain ⟨e, mem, same⟩ := backed
    exact ⟨e, grows.subset mem, same⟩
  | confirmCheckpoint cp => exact Shown.mono backed grows
  | confirmGeneration cp generation => exact Shown.mono backed grows
  | _ => trivial

end Call

/-- The marker of read admission stands for a view the entries build. -/
def Node.Marked (X : Engine D) (entries : List (RefEntry D)) (s : Node D) : Prop :=
  ∀ m ∈ s.store.readiness, Shown X entries m.viewDigest

theorem Node.Marked.mono {X : Engine D} {entries more : List (RefEntry D)} {s : Node D}
    (marked : s.Marked X entries) (grows : entries <+: more) : s.Marked X more :=
  fun m ready => (marked m ready).mono grows

variable {c : Call D}

theorem Call.Effect.marked {X : Engine D} {entries : List (RefEntry D)} {s s' : Node D}
    (effect : Effect X s s' c) (injective : Function.Injective X.hash)
    (grounded : Grounded X entries) (backed : c.Backed X entries) (marked : s.Marked X entries) :
    s'.Marked X entries := by
  intro m ready
  cases effect with
  | kept kept =>
    rw [kept.readiness] at ready
    exact marked m ready
  | cleared none => simp [none] at ready
  | @advanced decision _ advanced =>
    obtain ⟨marker, stored, same⟩ := advanced.marker
    obtain ⟨row, named, checksum, before, replayed⟩ := advanced.row
    obtain ⟨e, mem, known⟩ := backed
    obtain rfl := Option.mem_unique stored ready
    have digests : row.checksum X.schema = e.checksum X.schema := by
      rw [← checksum, ← grounded.checksum e mem, named, known]
    obtain ⟨_, _, start, _, changeset⟩ := Hashed.entry.inj (injective digests)
    rw [← same]
    exact grounded.shown_next injective mem (before.trans start) (changeset ▸ replayed)
  | @confirmed _ cp known _ stored =>
    obtain rfl := Option.mem_unique stored ready
    cases c with
    | confirmCheckpoint _ =>
      obtain rfl := Option.some.inj known
      exact backed
    | confirmGeneration _ _ =>
      obtain rfl := Option.some.inj known
      exact backed
    | _ => cases known

/-! What the secondary has been asked. -/

namespace Exchange

/-- A quarantine, or the begin of a transfer that is not complete. -/
def Closes : Exchange D → Prop
  | ⟨.quarantine, _⟩ => True
  | ⟨.snapshotBegin _, progress⟩ => progress.complete = false
  | ⟨.materializedBegin _, progress⟩ => progress.complete = false
  | _ => False

/-- A confirmation of the secondary's checkpoint. -/
def Admits (exchange : Exchange D) : Prop := exchange.call.confirmed.isSome = true

variable [DecidableEq D] {X : Engine D} {node node' : Node D} {random : Bytes32}

theorem Closes.closed {reply : c.Reply} (closes : Closes ⟨c, reply⟩) (guarded : node.Guarded)
    (ok : c.run X node random = .ok (reply, node')) : node'.store.readiness = none := by
  cases c with
  | quarantine =>
    simp only [Call.run, Node.quarantine, ensure_bind_eq_ok, pure_inj,
      Prod.mk.injEq] at ok
    obtain ⟨_, _, rfl⟩ := ok
    rfl
  | snapshotBegin manifest =>
    exact (Call.run_effect ok).guarded guarded
      (.inl ⟨reply, (Node.snapshotBegin_outcome ok).2, closes⟩)
  | materializedBegin manifest =>
    exact (Call.run_effect ok).guarded guarded
      (.inr ⟨reply, (Node.materializedBegin_outcome ok).2, closes⟩)
  | _ => exact closes.elim

end Exchange

/-- No confirmation has succeeded since the secondary was last closed for reads. -/
def Pair.Shut (pair : Pair D) : Prop :=
  ∃ later exchange earlier, pair.served = later ++ exchange :: earlier ∧ exchange.Closes ∧
    ∀ x ∈ later, ¬x.Admits

/-- Every choice leaves the secondary to its operator only. -/
def Choice.Operated (choice : Choice D) : Prop := ∀ call ∈ choice.others, call.1.Operator

namespace Pair

/-- What holds of a pair at any time, whatever its secondary holds. -/
structure ReadSafe (X : Engine D) (identity : Identity ℕ) (pair : Pair D) : Prop where
  leads : ∃ (h : History X.schema identity) (tail : Option (RefEntry D)),
    pair.primary.Leads h tail
  marked : pair.secondary.Marked X pair.primary.decidedEntries
  inflight : ∀ call ∈ pair.inflight, call.1.Backed X pair.primary.decidedEntries
  guarded : pair.secondary.Guarded
  shut : pair.Shut → pair.secondary.store.readiness = none

variable {X : Engine D} {identity : Identity ℕ} {pair : Pair D}

theorem ReadSafe.grounded (safe : pair.ReadSafe X identity) :
    Grounded X pair.primary.decidedEntries := by
  obtain ⟨h, tail, leads⟩ := safe.leads
  exact leads.decided_grounded

/-- The last exchange closed the secondary, or it was closed before and not reopened. -/
theorem Shut.cons {exchange : Exchange D} {node : Node D}
    (shut : Shut { pair with secondary := node, inflight := none,
                             served := exchange :: pair.served }) :
    exchange.Closes ∨ (pair.Shut ∧ ¬exchange.Admits) := by
  obtain ⟨later, x, earlier, split, closes, quiet⟩ := shut
  cases later with
  | nil =>
    obtain ⟨rfl, _⟩ := List.cons.inj split
    exact .inl closes
  | cons y later =>
    obtain ⟨rfl, rest⟩ := List.cons.inj split
    exact .inr ⟨⟨later, x, earlier, rest, closes, fun z mem => quiet z (.tail _ mem)⟩,
      quiet _ (.head _)⟩

theorem create_readSafe (X : Engine D) (supported : identity.schema = 1 ∧ 0 < identity.epoch)
    (generation revision generation' revision' : Bytes32) :
    (create identity generation revision generation' revision').ReadSafe X identity where
  leads := ⟨_, _, Node.create_sound X .primary supported generation revision, rfl, rfl, rfl, .nil⟩
  marked := by simp [Node.Marked, create, Node.create]
  inflight := by simp [create]
  guarded := by simp [Node.Guarded, create, Node.create]
  shut := by simp [create, Node.create]

/-- The entries are among those the primary has committed to. -/
def Over (X : Engine D) (identity : Identity ℕ) (entries : List (RefEntry D))
    (pair : Pair D) : Prop :=
  entries <+: pair.primary.decidedEntries ∧ pair.ReadSafe X identity

/-- The program passes on only what is committed once the entries are. -/
def Keeps (X : Engine D) (identity : Identity ℕ) (entries : List (RefEntry D)) {α : Type}
    (m : Program D α) : Prop :=
  Triple Choice.Operated (ReadSafe X identity) (Over X identity entries) m
    (fun _ => Over X identity entries) (fun _ => Over X identity entries)

namespace Keeps

variable {entries : List (RefEntry D)} {α β : Type} {m : Program D α}
  {f : α → Program D β}

theorem bind (first : Keeps X identity entries m) (rest : ∀ a, Keeps X identity entries (f a)) :
    Keeps X identity entries (m >>= f) :=
  Triple.bind first rest

theorem pure (a : α) : Keeps X identity entries (Pure.pure a : Program D α) :=
  Triple.pure a fun _ atop => atop

theorem throw (e : Fault) : Keeps X identity entries (MonadExcept.throw e : Program D α) :=
  Triple.throw e fun _ atop => atop

theorem ofExcept (r : Result α) : Keeps X identity entries (Script.ofExcept r) :=
  Triple.ofExcept (fun _ _ _ atop => atop) fun _ _ _ atop => atop

theorem halt : Keeps X identity entries (Script.halt : Program D α) :=
  fun _ _ _ _ atop => atop.2

theorem look (g : Pair D → α) : Keeps X identity entries (Script.look g : Program D α) :=
  fun _ _ _ _ atop => atop

theorem attempt (keeps : Keeps X identity entries m) : Keeps X identity entries m.attempt := by
  refine (Triple.attempt keeps).strengthen fun r pair held => ?_
  cases r <;> exact held

theorem of_more {more : List (RefEntry D)} (keeps : Keeps X identity more m)
    (grows : entries <+: more) :
    Triple Choice.Operated (ReadSafe X identity) (Over X identity more) m
      (fun _ => Over X identity entries) (fun _ => Over X identity entries) :=
  keeps.conseq (fun _ atop => atop) (fun _ safe => safe)
    (fun _ _ atop => ⟨grows.trans atop.1, atop.2⟩) fun _ _ atop => ⟨grows.trans atop.1, atop.2⟩

end Keeps

variable [DecidableEq D]

theorem ReadSafe.serve (safe : pair.ReadSafe X identity) (injective : Function.Injective X.hash)
    (backed : c.Backed X pair.primary.decidedEntries) (random : Bytes32) :
    (pair.serve X c random).1.ReadSafe X identity := by
  unfold Pair.serve
  cases ran : c.run X pair.secondary random with
  | error e => exact { safe with inflight := by simp }
  | ok result =>
    obtain ⟨reply, node⟩ := result
    have effect := Call.run_effect ran
    refine
      { leads := safe.leads
        marked := effect.marked injective safe.grounded backed safe.marked
        inflight := by simp
        guarded := effect.guarded safe.guarded
        shut := ?_ }
    intro shut
    rcases shut.cons with closes | ⟨before, other⟩
    · exact closes.closed safe.guarded ran
    · refine effect.stays_closed ?_ (safe.shut before)
      simpa [Exchange.Admits] using other

theorem ReadSafe.settle (safe : pair.ReadSafe X identity) (injective : Function.Injective X.hash)
    {choice : Choice D} (operated : choice.Operated) :
    (pair.settle X choice).primary = pair.primary ∧
      (pair.settle X choice).ReadSafe X identity := by
  have others : ∀ (calls : List (Call D × Bytes32)) (pair : Pair D),
      (∀ call ∈ calls, call.1.Operator) → pair.ReadSafe X identity →
      (calls.foldl (fun pair call => (pair.serve X call.1 call.2).1) pair).primary =
          pair.primary ∧
        (calls.foldl (fun pair call => (pair.serve X call.1 call.2).1) pair).ReadSafe X
          identity := by
    intro calls
    induction calls with
    | nil => exact fun pair _ safe => ⟨rfl, safe⟩
    | cons call rest ih =>
      intro pair operators safe
      have served := safe.serve injective (operators call (.head _)).backed call.2
      obtain ⟨primary, rest⟩ := ih _ (fun c mem => operators c (.tail _ mem)) served
      exact ⟨primary.trans (serve_primary ..), rest⟩
  unfold Pair.settle
  cases waiting : pair.inflight with
  | none => exact others _ pair operated safe
  | some call =>
    by_cases land : choice.land = true
    · simp only [land, if_true]
      have landed := safe.serve injective (safe.inflight call waiting) call.2
      obtain ⟨primary, rest⟩ := others _ _ operated landed
      exact ⟨primary.trans (serve_primary ..), rest⟩
    · simp only [land]
      exact others _ pair operated safe

section Rules

variable {entries : List (RefEntry D)} {α β : Type} {c : Call D}
  (injective : Function.Injective X.hash)

include injective

section

variable {f : c.Reply → Program D β} {g : Result c.Reply → Program D β}
  (post : c.Reply → List (RefEntry D) → Prop)
  (tells : ∀ (p p' : Node D) (h : History X.schema identity) tail random r, p.Leads h tail →
    c.run X p random = .ok (r, p') → post r p'.decidedEntries)

include tells

/-- A call on the primary and what its reply tells about the committed entries. -/
theorem primary_tells :
    Triple Choice.Operated (ReadSafe X identity) (Over X identity entries) (onPrimary X c)
      (fun r pair => ∃ more, (entries <+: more ∧ post r more) ∧ Over X identity more pair)
      (fun _ => Over X identity entries) := by
  refine Triple.step fun choice pair operated atop => ?_
  obtain ⟨primary, safe⟩ := atop.2.settle injective operated
  have inside : entries <+: (pair.settle X choice).primary.decidedEntries := by
    rw [primary]
    exact atop.1
  dsimp only
  by_cases before : choice.stopBefore = true
  · simp only [before, if_true]
    exact safe
  · simp only [before, primary]
    cases ran : c.run X pair.primary choice.random with
    | error e =>
      exact told_reply (fun _ => safe) ⟨inside, safe⟩
    | ok result =>
      obtain ⟨r, p'⟩ := result
      obtain ⟨h, tail, leads⟩ := atop.2.leads
      obtain ⟨h', tail', leads', grows⟩ := leads.run ran
      have moved : ReadSafe X identity { pair.settle X choice with primary := p' } :=
        { leads := ⟨h', tail', leads'⟩
          marked := (primary ▸ safe.marked).mono grows
          inflight := fun call waiting => (primary ▸ safe.inflight call waiting).mono grows
          guarded := safe.guarded
          shut := safe.shut }
      exact told_reply (fun _ => moved)
        ⟨p'.decidedEntries, ⟨atop.1.trans grows, tells _ _ _ _ _ _ leads ran⟩, List.prefix_refl _, moved⟩

theorem Keeps.told (rest : ∀ r more, post r more → Keeps X identity more (f r)) :
    Keeps X identity entries (onPrimary X c >>= f) := by
  refine Triple.bind (primary_tells injective post tells) fun r => ?_
  refine Triple.any fun more => Triple.given fun ⟨grows, known⟩ => ?_
  exact (rest r more known).of_more grows

theorem Keeps.tried (ok : ∀ r more, post r more → Keeps X identity more (g (.ok r)))
    (error : ∀ e, Keeps X identity entries (g (.error e))) :
    Keeps X identity entries ((onPrimary X c).attempt >>= g) := by
  refine Triple.bind (primary_tells injective post tells).attempt fun r => ?_
  cases r with
  | ok r =>
    refine Triple.any fun more => Triple.given fun ⟨grows, known⟩ => ?_
    exact (ok r more known).of_more grows
  | error e => exact error e

end

theorem keeps_primary (c : Call D) : Keeps X identity entries (onPrimary X c) := by
  refine (primary_tells injective (fun _ _ => True) fun _ _ _ _ _ _ _ _ => trivial).strengthen ?_
  intro _ pair ⟨more, ⟨grows, _⟩, inside, safe⟩
  exact ⟨grows.trans inside, safe⟩

theorem keeps_secondary (backed : c.Backed X entries) :
    Keeps X identity entries (onSecondary X c) := by
  refine Triple.step fun choice pair operated atop => ?_
  obtain ⟨primary, safe⟩ := atop.2.settle injective operated
  have inside : entries <+: (pair.settle X choice).primary.decidedEntries := by
    rw [primary]
    exact atop.1
  dsimp only
  by_cases before : choice.stopBefore = true
  · simp only [before, if_true]
    exact safe
  · simp only [before]
    by_cases answered : choice.answered = true
    · have served := safe.serve injective (backed.mono inside) choice.random
      have kept : (Pair.serve X (pair.settle X choice) c choice.random).1.primary =
        (pair.settle X choice).primary := serve_primary ..
      simp only [answered, if_true]
      cases outcome : (pair.settle X choice).serve X c choice.random with
      | mk next r =>
        rw [outcome] at served kept
        refine told_reply (fun _ => served) ?_
        cases r <;> exact ⟨kept ▸ inside, served⟩
    · have waiting : ReadSafe X identity
          { pair.settle X choice with inflight := some (c, choice.random) } :=
        { safe with inflight := by rintro call ⟨⟩; exact backed.mono inside }
      simp only [answered]
      exact told_reply (fun _ => waiting) ⟨inside, waiting⟩

end Rules

/-! The coordinator's programs. -/

section Programs

variable {entries : List (RefEntry D)} (injective : Function.Injective X.hash)

include injective

/-- Each entry is carried on once the decided ones are known to be committed. -/
theorem resolveEntries_keeps {page : List (RefEntry D)}
    (known : ∀ e ∈ page, e.state ≠ .prepared → ∃ row ∈ entries, row.digest = e.digest)
    (cursor completed : ℕ) :
    Keeps X identity entries (resolveEntries X cursor completed page) := by
  induction page generalizing cursor completed with
  | nil => exact .pure _
  | cons e rest ih =>
    have later := fun e mem => known e (List.mem_cons_of_mem _ mem)
    unfold resolveEntries
    split_ifs with prepared
    · refine .bind (keeps_secondary injective trivial) fun _ => ?_
      refine .bind (keeps_primary injective _) fun _ => ?_
      exact ih later _ _
    · refine .bind (keeps_secondary injective trivial) fun _ => ?_
      refine .bind (keeps_secondary injective (known e List.mem_cons_self prepared)) fun _ => ?_
      refine .bind (keeps_primary injective _) fun _ => ?_
      exact ih later _ _

theorem resolvePages_keeps (length fuel cursor completed : ℕ) :
    Keeps X identity entries (resolvePages X length fuel cursor completed) := by
  induction fuel generalizing entries cursor completed with
  | zero =>
    unfold resolvePages
    split_ifs
    · exact .halt
    · exact .pure _
  | succ fuel ih =>
    unfold resolvePages
    split_ifs
    · refine .bind (keeps_primary injective _) fun head => ?_
      refine .told injective (fun page more => ∀ e ∈ page.entries, e.state ≠ .prepared →
        ∃ row ∈ more, row.digest = e.digest) ?_ fun page more known => ?_
      · intro p p' h tail random page leads ok e mem decided
        obtain ⟨read, rfl⟩ := Node.reading_ok ok
        exact ⟨_, Node.mem_decidedEntries (Store.journalPage_mem read mem) decided, rfl⟩
      · exact .bind (resolveEntries_keeps injective known _ _) fun _ => ih _ _
    · exact .pure _

theorem checkPeer_keeps : Keeps X identity entries (checkPeer X) := by
  refine .bind (keeps_primary injective _) fun expected => ?_
  cases expected with
  | none => exact .pure _
  | some _ => exact .bind (keeps_secondary injective trivial) fun _ => .ofExcept _

theorem checkBases_keeps (ps ss : JournalHead ℕ D) :
    Keeps X identity entries (checkBases X ps ss) := by
  unfold checkBases
  split_ifs
  · cases ps.base with
    | none => exact .throw _
    | some base => exact .bind (keeps_secondary injective trivial) fun _ => .ofExcept _
  · cases ss.base with
    | none => exact .pure _
    | some base =>
      dsimp only
      split_ifs
      · exact .bind (keeps_primary injective _) fun _ => .ofExcept _
      · exact .throw _

theorem comparePages_keeps (ps ss : JournalHead ℕ D) (fuel cursor applied : ℕ) :
    Keeps X identity entries (comparePages X ps ss fuel cursor applied) := by
  induction fuel generalizing cursor applied with
  | zero =>
    unfold comparePages
    split_ifs
    · exact .halt
    · exact .pure _
  | succ fuel ih =>
    unfold comparePages
    split_ifs
    · refine .bind (keeps_primary injective _) fun a => ?_
      refine .bind (keeps_secondary injective trivial) fun b => ?_
      refine .bind (.ofExcept _) fun _ => .bind (.ofExcept _) fun _ => ?_
      exact .bind (.ofExcept _) fun _ => ih _ _
    · exact .pure _

theorem unchangedHeads_keeps (ps ss : JournalHead ℕ D) :
    Keeps X identity entries (unchangedHeads X ps ss) := by
  refine .bind (keeps_primary injective _) fun head => ?_
  split_ifs
  · exact .bind (keeps_secondary injective trivial) fun _ => .pure _
  · exact .pure _

theorem recover_keeps : Keeps X identity entries (recover X) := by
  refine .bind (keeps_primary injective _) fun ps => ?_
  refine .bind (keeps_secondary injective trivial) fun ss => ?_
  refine .bind (.ofExcept _) fun _ => .bind (checkPeer_keeps injective) fun _ => ?_
  refine .bind (.ofExcept _) fun _ => .bind (checkBases_keeps injective _ _) fun _ => ?_
  refine .bind (comparePages_keeps injective _ _ _ _ _) fun applied => ?_
  refine .bind (unchangedHeads_keeps injective _ _) fun unchanged => ?_
  refine .bind (.ofExcept _) fun _ => ?_
  refine .bind (resolvePages_keeps injective _ _ _ _) fun completed => ?_
  refine .told injective (fun cp more => Shown X more cp.viewDigest) ?_ fun cp more shown => ?_
  · intro p p' h tail random cp leads ok
    obtain ⟨read, rfl⟩ := Node.reading_ok ok
    exact leads.checkpoint_shown read
  · exact .bind (keeps_secondary injective shown) fun _ => .pure _

theorem applyBoth_keeps {decision : RefEntry D}
    (known : ∃ row ∈ entries, row.digest = decision.digest) :
    Keeps X identity entries (applyBoth X decision) :=
  .bind (keeps_secondary injective known) fun _ => keeps_primary injective _

theorem commit_keeps (batch : Batch Change ℕ) : Keeps X identity entries (commit X batch) := by
  refine .bind (recover_keeps injective) fun _ => ?_
  refine .bind (keeps_primary injective _) fun completed => ?_
  cases completed with
  | some result => exact .pure _
  | none =>
    refine .bind (keeps_primary injective _) fun e => ?_
    refine .bind (keeps_secondary injective trivial) fun _ => ?_
    refine .told injective (fun d more => ∃ row ∈ more, row.digest = d.digest)
      (fun p p' h tail random d leads ok => leads.decide_committed ok) fun d more known => ?_
    refine .bind (applyBoth_keeps injective known) fun _ => ?_
    refine .bind (keeps_primary injective _) fun receipt => ?_
    cases receipt with
    | none => exact .throw _
    | some r => exact .pure _

theorem unavailable_keeps (id : String) : Keeps X identity entries (unavailable X id) := by
  refine .bind (.attempt (keeps_primary injective _)) fun _ => ?_
  exact .bind (.attempt (keeps_primary injective _)) fun _ => .pure _

theorem refuse_keeps (id : String) : Keeps X identity entries (refuse X id) :=
  .bind (unavailable_keeps injective id) fun _ => .pure _

theorem answer_keeps (id : String) : Keeps X identity entries (answer X id) := by
  refine .bind (.attempt (keeps_primary injective _)) fun receipt => ?_
  split
  · exact .pure _
  · exact refuse_keeps injective _

theorem conclude_keeps (id : String) : Keeps X identity entries (conclude X id) := by
  refine .tried injective (fun d more => ∃ row ∈ more, row.digest = d.digest)
    (fun p p' h tail random d leads ok => leads.decide_committed ok) (fun d more known => ?_)
    fun e => .bind (unavailable_keeps injective id) fun _ => .pure _
  refine .bind (.attempt (applyBoth_keeps injective known)) fun applied => ?_
  cases applied with
  | error e => exact refuse_keeps injective _
  | ok _ => exact answer_keeps injective _

theorem propose_keeps (batch : Batch Change ℕ) : Keeps X identity entries (propose X batch) := by
  refine .bind (.attempt (keeps_primary injective _)) fun prepared => ?_
  split
  · exact .pure _
  · exact refuse_keeps injective _
  · refine .bind (.attempt (keeps_secondary injective trivial)) fun staged => ?_
    cases staged with
    | error e => exact refuse_keeps injective _
    | ok _ => exact conclude_keeps injective _

theorem reconcile_keeps : Keeps X identity entries (reconcile X) :=
  .bind (recover_keeps injective) fun _ => .bind (keeps_primary injective _) fun _ => .pure _

theorem submit_keeps (batch : Batch Change ℕ) : Keeps X identity entries (submit X batch) := by
  refine .bind (.attempt (reconcile_keeps injective)) fun reconciled => ?_
  cases reconciled with
  | error e => exact refuse_keeps injective _
  | ok _ =>
    refine .bind (.attempt (keeps_primary injective _)) fun completed => ?_
    split
    · exact .pure _
    · exact propose_keeps injective _
    · exact refuse_keeps injective _

theorem write_keeps (batch : Batch Change ℕ) : Keeps X identity entries (write X batch) := by
  refine .bind (.attempt (keeps_primary injective _)) fun previous => ?_
  cases previous with
  | error e => exact refuse_keeps injective _
  | ok previous =>
    refine .bind (.look _) fun scope => ?_
    split_ifs
    · exact .pure _
    · refine .bind (.attempt (keeps_primary injective _)) fun receipt => ?_
      cases receipt with
      | error e => exact refuse_keeps injective _
      | ok receipt =>
        dsimp only
        split_ifs
        · exact .pure _
        · exact submit_keeps injective _

theorem sameGenerations_keeps (r : Publication.Proposal D) :
    Keeps X identity entries (sameGenerations X r) := by
  refine .bind (keeps_primary injective _) fun head => ?_
  split_ifs
  · exact .bind (keeps_secondary injective trivial) fun _ => .pure _
  · exact .pure _

omit [DecidableEq D] injective in
theorem freshGeneration_keeps : Keeps X identity entries (freshGeneration : Program D Bytes32) := by
  refine Triple.step fun choice pair _ atop => ?_
  exact told_reply (fun _ => atop.2) atop

theorem proposal_keeps : Keeps X identity entries (proposal X) := by
  refine .bind (keeps_primary injective _) fun status => ?_
  cases status with
  | some r => exact .pure _
  | none =>
    refine .bind (keeps_secondary injective trivial) fun _ => .bind (.ofExcept _) fun _ => ?_
    refine .bind (keeps_primary injective _) fun _ => .bind freshGeneration_keeps fun _ => ?_
    refine .bind (keeps_primary injective _) fun _ => ?_
    exact .bind (keeps_secondary injective trivial) fun _ => .pure _

theorem publishBase_keeps : Keeps X identity entries (publishBase X) := by
  refine .bind (recover_keeps injective) fun _ => .bind (proposal_keeps injective) fun r => ?_
  refine .bind (sameGenerations_keeps injective _) fun _ => .bind (.ofExcept _) fun _ => ?_
  refine .bind (keeps_primary injective _) fun _ => .bind (.ofExcept _) fun _ => ?_
  refine .bind (keeps_primary injective _) fun _ => ?_
  refine .bind (keeps_secondary injective trivial) fun _ => .bind (.ofExcept _) fun _ => ?_
  refine .bind (keeps_secondary injective trivial) fun _ => .bind (.ofExcept _) fun _ => ?_
  refine .bind (keeps_secondary injective trivial) fun _ => .bind (.ofExcept _) fun _ => ?_
  exact keeps_primary injective _

theorem sameRecord_keeps (r : Publication.Record D) :
    Keeps X identity entries (sameRecord X r) := by
  unfold sameRecord
  split_ifs
  · exact .bind (keeps_secondary injective trivial) fun _ => .pure _
  · exact .pure _

theorem activateBase_keeps : Keeps X identity entries (activateBase X) := by
  refine .bind (keeps_primary injective _) fun status => ?_
  cases status with
  | none => exact .throw _
  | some r =>
    refine .bind (sameRecord_keeps injective r) fun _ => .bind (.ofExcept _) fun _ => ?_
    refine .bind (sameGenerations_keeps injective _) fun _ => .bind (.ofExcept _) fun _ => ?_
    refine .bind (recover_keeps injective) fun _ => ?_
    refine .bind (keeps_secondary injective trivial) fun _ => ?_
    refine .bind (keeps_secondary injective trivial) fun _ => .bind (.ofExcept _) fun _ => ?_
    exact keeps_primary injective _

end Programs

theorem ReadSafe.verifiedView_eq (safe : pair.ReadSafe X identity)
    (injective : Function.Injective X.hash) {view : View}
    (verified : pair.secondary.verifiedView X = .ok (some view)) :
    pair.secondary.store.readiness ≠ none ∧
      ∃ n, (pair.primary.decidedEntries.take n).map Entry.sequence = List.range' 1 n ∧
        replayAll X (pair.primary.decidedEntries.take n) = .ok view := by
  obtain ⟨_, _, verified⟩ := bind_eq_ok.mp verified
  obtain ⟨m, ready, rfl, digest⟩ := Store.verifiedView_some verified
  obtain ⟨reached, shown, inside, built, same⟩ := safe.marked m ready
  have views : Hashed.view shown = Hashed.view pair.secondary.store.data :=
    injective (same.trans digest.symm)
  obtain rfl := Hashed.view.inj views
  have consecutive := safe.grounded.consecutive
  obtain ⟨rest, split⟩ := inside
  refine ⟨by simp [ready], reached.length, ?_⟩
  rw [← split, Table.Consecutive.append] at consecutive
  rw [← split, List.take_left]
  exact ⟨consecutive.1.map_key, built⟩

end Pair

/-- Runs of the coordinator beside an operator; the checkpoint of the primary may be
confirmed at any time between two commands. -/
inductive Attended [DecidableEq D] (X : Engine D) (start : Pair D) : Pair D → Prop
  | refl : Attended X start start
  | command {pair : Pair D} (command : Command) (choices : ℕ → Choice D) :
      Attended X start pair → (∀ n, (choices n).Operated) →
      Attended X start (command.exec X choices pair)
  | confirm {pair : Pair D} (cp : Checkpoint ℕ D) (generation random : Bytes32) :
      Attended X start pair → pair.primary.checkpoint X = .ok cp →
      Attended X start (pair.serve X (.confirmGeneration cp generation) random).1

variable [DecidableEq D] {X : Engine D} {identity : Identity ℕ} {pair : Pair D}

theorem Command.exec_readSafe (command : Command) (injective : Function.Injective X.hash)
    {choices : ℕ → Choice D} (operated : ∀ n, (choices n).Operated)
    (safe : pair.ReadSafe X identity) : (command.exec X choices pair).ReadSafe X identity := by
  have ends : ∀ {α : Type} {m : Program D α}, Pair.Keeps X identity [] m →
      (m choices 0 pair).final.ReadSafe X identity := fun keeps =>
    Triple.final keeps (fun _ safe => safe) (fun _ _ atop => atop.2) (fun _ _ atop => atop.2)
      operated ⟨List.nil_prefix, safe⟩
  cases command with
  | recover => exact ends (Pair.recover_keeps injective)
  | commit batch => exact ends (Pair.commit_keeps injective batch)
  | write batch => exact ends (Pair.write_keeps injective batch)
  | publishBase => exact ends (Pair.publishBase_keeps injective)
  | activateBase => exact ends (Pair.activateBase_keeps injective)

theorem Attended.readSafe {start : Pair D} (attended : Attended X start pair)
    (injective : Function.Injective X.hash) (safe : start.ReadSafe X identity) :
    pair.ReadSafe X identity := by
  induction attended with
  | refl => exact safe
  | command command choices _ operated ih => exact command.exec_readSafe injective operated ih
  | confirm cp generation random _ computed ih =>
    obtain ⟨h, tail, leads⟩ := ih.leads
    have backed : (Call.confirmGeneration cp generation).Backed X _ :=
      leads.checkpoint_shown computed
    exact ih.serve injective backed random

variable {generation revision generation' revision' : Bytes32}

/-- A verified read returns the view of a prefix of the decided entries; a secondary
that was closed and not confirmed again returns none. -/
theorem secondary_reads (injective : Function.Injective X.hash)
    (supported : identity.schema = 1 ∧ 0 < identity.epoch)
    (attended : Attended X (Pair.create identity generation revision generation' revision') pair) :
    (∀ view, pair.secondary.verifiedView X = .ok (some view) →
      ∃ n, (pair.primary.decidedEntries.take n).map Entry.sequence = List.range' 1 n ∧
        replayAll X (pair.primary.decidedEntries.take n) = .ok view) ∧
    (pair.Shut → ∀ view, pair.secondary.verifiedView X ≠ .ok (some view)) := by
  have safe := attended.readSafe injective (Pair.create_readSafe X supported ..)
  refine ⟨fun view verified => (safe.verifiedView_eq injective verified).2, ?_⟩
  intro shut view verified
  exact (safe.verifiedView_eq injective verified).1 (safe.shut shut)

namespace Sample

/-- One operation committed, and the secondary admitted for reads. -/
def servingPair : Pair Term := (Command.commit (placeBatch "a")).exec engine steady emptyPair

/-- An operator quarantines the secondary; the coordinator stops before its first call. -/
def quarantining (_ : ℕ) : Choice Term :=
  { land := false, others := [(.quarantine, draw 9)], stopBefore := true, stopAfter := false,
    answered := true, random := draw 0 }

def quarantinedPair : Pair Term := Command.recover.exec engine quarantining servingPair

theorem servingPair_attended : Attended engine emptyPair servingPair :=
  .command (.commit (placeBatch "a")) steady .refl fun _ => by simp [Choice.Operated, steady]

theorem quarantinedPair_attended : Attended engine emptyPair quarantinedPair :=
  .command .recover quarantining servingPair_attended fun _ => by
    simp [Choice.Operated, quarantining, Call.Operator]

theorem quarantinedPair_shut : quarantinedPair.Shut :=
  ⟨[], ⟨.quarantine, ()⟩, servingPair.served, rfl, trivial, by simp⟩

/-- The secondary shows the committed place, and nothing once it is quarantined. -/
theorem secondary_reads_placed :
    servingPair.secondary.verifiedView engine = .ok (some ⟨[⟨"p", "n"⟩], []⟩) ∧
    (∃ n, (servingPair.primary.decidedEntries.take n).map Entry.sequence = List.range' 1 n ∧
      replayAll engine (servingPair.primary.decidedEntries.take n) =
        .ok ⟨[⟨"p", "n"⟩], []⟩) ∧
    ∀ view, quarantinedPair.secondary.verifiedView engine ≠ .ok (some view) := by
  have read : servingPair.secondary.verifiedView engine = .ok (some ⟨[⟨"p", "n"⟩], []⟩) := by
    decide +kernel
  exact ⟨read,
    (secondary_reads engine_hash_injective (by decide) servingPair_attended).1 _ read,
    (secondary_reads engine_hash_injective (by decide) quarantinedPair_attended).2
      quarantinedPair_shut⟩

end Sample

end TerrapiVault.Replication
