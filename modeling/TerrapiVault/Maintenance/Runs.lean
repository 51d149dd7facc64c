import TerrapiVault.Maintenance.Effects

/-! Runs of certified maintenance on one journal and two nodes: calls in any order, a
handle dropped at any time, and ordinary service while no maintenance is pending. -/
namespace TerrapiVault.Maintenance

open Recovery

variable {T : Type → Type} {F C V : Type}

/-- The node a call works on, and how. -/
def Call.turn? : Call → Option (Fin 2 × Kind)
  | .recordDecided i _ => some (i, .decide)
  | .applyDecided i _ random => some (i, .apply random)
  | .recordComplete i _ => some (i, .complete)
  | .finalizeNode i _ => some (i, .finalize)
  | .beginAbort i abort token _ => some (i, .abort abort token)
  | .finishAbort i _ => some (i, .restore)
  | _ => none

/-- The two nodes of one pair, the primary first. -/
def Paired (node : Fin 2 → Node F C V) : Prop :=
  (node 0).role = .primary ∧ (node 1).role = .secondary ∧ (node 0).identity = (node 1).identity

/-- Ordinary service keeps the owner and the certificates of a node. -/
structure Node.Serves (n n' : Node F C V) : Prop where
  role : n'.role = n.role
  identity : n'.identity = n.identity
  marker : n'.marker = none
  progress : n'.progress = none
  certificates : n'.segments.certificates = n.segments.certificates

namespace Site

/-- The steps that are no call; `close` is a handle that is dropped or dies with its process. -/
inductive Idle : Site T F C V → Site T F C V → Prop
  | close (s : Site T F C V) (i : Fin 2) :
    Idle s { s with handle := Function.update s.handle i none }
  | ordinary (s : Site T F C V) (i : Fin 2) (n : Node F C V) (free : s.handle i = none)
    (idle : (s.node i).marker = none) (serves : (s.node i).Serves n) :
    Idle s { s with node := Function.update s.node i n }

/-- A step under one trust whose call, if it is one, meets a condition. -/
def Allowed (E : Env T) (host : Host F C V) (trust : Trust) (meets : Site T F C V → Call → Prop)
    (s s' : Site T F C V) : Prop :=
  (∃ c, meets s c ∧ c.run E host trust s = .ok s') ∨ Idle s s'

def Step (E : Env T) (host : Host F C V) (s s' : Site T F C V) : Prop :=
  ∃ trust, Allowed E host trust (fun _ _ => True) s s'

/-- A new journal and two nodes without pending maintenance, whose certificates are
older than the journal. -/
structure Start (E : Env T) (scope : JournalScope) (s : Site T F C V) : Prop where
  created : Journal.create E scope = .ok s.journal
  idle : ∀ i, (s.node i).marker = none ∧ (s.node i).progress = none
  closed : ∀ i, s.handle i = none
  older : ∀ i, ∀ q ∈ (s.node i).certified, q.revision < scope.initialRevision

/-- Both nodes were read as applied, and the completion is derived from the decision. -/
def Backs (E : Env T) (s : Site T F C V) (decision : CommittedTransition) (id : Id) : Prop :=
  ∃ row : Prepared, row.phase = .applied ∧ decision.request = row.request ∧
    id = completionId E decision.request decision.tokenDigest (both true) ∧
    ∀ i, (s.node i).progress = some row

/-- What stands behind a journal call: the handles it was made with. -/
def Guards (E : Env T) (host : Host F C V) (trust : Trust) (s : Site T F C V) : JournalCall → Prop
  | .decide request token _ _ => ∃ h h', s.handle 0 = some h ∧ s.handle 1 = some h' ∧
      h.prepared = h'.prepared ∧ h.prepared.phase = .prepared ∧ request = h.prepared.request ∧
      token = h.prepared.token
  | .acknowledge _ _ _ => ∃ i h, s.handle i = some h ∧ h.prepared.phase = .applied ∧
      (s.node i).validateRetained E host h trust = .ok ()
  | .complete decision id _ => s.Backs E decision id
  | .abort abort _ _ policy => ∃ h h', s.handle 0 = some h ∧ s.handle 1 = some h' ∧
      h.prepared.request = h'.prepared.request ∧
      ∀ scope, policy.abortApplicable scope abort = .ok () →
        (s.node 0).isAborting E host h trust abort = .ok () ∧
        (s.node 1).isAborting E host h' trust abort = .ok ()

/-- What a call may do to a site. -/
inductive Change (E : Env T) (host : Host F C V) (trust : Trust) (s : Site T F C V) (call : Call) :
    Site T F C V → Prop
  | prepare (opened : Fin 2 → Opened) (r : Prepared) (fresh : r = .fresh r.plan r.request r.token)
    (now writes : ℕ) (named : call = .preparePair opened r.plan r.request r.token now writes)
    (closed : ∀ i, s.handle i = none) (node : Fin 2 → Node F C V)
    (written : ∀ i, ((s.node i).marker = none ∨ (s.node i).progress = some r) ∧
      (node i = s.node i ∨ (s.node i).marker = none ∧
        (s.node i).preflight E host (opened i) r = .ok () ∧
        ((s.node i).runtime = 3 ∨ (s.node i).runtime = 4) ∧
        node i = (s.node i).prepared E r))
    (paired : Paired s.node) :
    Change E host trust s call { s with node := node }
  | «open» (i : Fin 2) (h : Handle) (free : s.handle i = none)
    (found : (s.node i).progress = some h.prepared) (live : h.finalized = false)
    (owner : h.identity = (s.node i).identity ∧ h.role = (s.node i).role) :
    Change E host trust s call { s with handle := Function.update s.handle i (some h) }
  | turn (i : Fin 2) (h : Handle) (held : s.handle i = some h) (kind : Kind)
    (named : call.turn? = some (i, kind)) (n' : Node F C V) (h' : Handle)
    (turned : Turn E host trust s.journal (s.node i) h kind n' h') :
    Change E host trust s call (s.put i (n', h'))
  | journal (c : JournalCall) (j : Journal T) (ran : c.run E trust s.journal = .ok j)
    (guarded : s.Guards E host trust c)
    (named : ∀ abort token now policy, c = .abort abort token now policy →
      ∃ asks, call = .abortAuthority abort token now asks) :
    Change E host trust s call { s with journal := j }

variable {E : Env T} {host : Host F C V} {trust : Trust} {s s' : Site T F C V}

theorem Allowed.step {meets : Site T F C V → Call → Prop}
    (allowed : Allowed E host trust meets s s') : Step E host s s' :=
  ⟨trust, allowed.imp_left fun ⟨c, _, ran⟩ => ⟨c, trivial, ran⟩⟩

theorem opened_eq_ok {i : Fin 2} {h : Handle} : s.opened i = .ok h ↔ s.handle i = some h :=
  require_eq_ok

theorem abortingPolicy_applicable {external : Policy} {node : Fin 2 → Node F C V} {h h' : Handle}
    {scope : JournalScope} {abort : MaintenanceAbort}
    (ok : (abortingPolicy E host external node h h' trust).abortApplicable scope abort = .ok ()) :
    (node 0).isAborting E host h trust abort = .ok () ∧
      (node 1).isAborting E host h' trust abort = .ok () := by
  simp only [abortingPolicy, unit_bind_eq_ok] at ok
  exact ok.2

end Site

open Site

variable {E : Env T} {host : Host F C V} {trust : Trust} {s s' : Site T F C V}

theorem preparePair_paired {node node' : Fin 2 → Node F C V} {opened : Fin 2 → Opened}
    {plan : PairPlan} {request : Request} {token : String} {now writes : ℕ}
    (ok : preparePair E host node opened plan request token now trust writes = .ok node') :
    Paired node := by
  simp only [preparePair, checked_ok] at ok
  obtain ⟨_, _, _, paired, _⟩ := ok
  exact paired

theorem completeAuthority_backs {h h' : Handle} {j : Journal T} {policy : ℕ → Policy}
    (ok : completeAuthority E host s.node h h' s.journal trust policy = .ok j) :
    ∃ decision id policy, s.journal.complete E decision id trust policy = .ok j ∧
      s.Backs E decision id := by
  simp only [completeAuthority, checked_ok] at ok
  obtain ⟨⟨_, _, _, same, phase⟩, first, second, decision, fetched, all, ran⟩ := ok
  simp only [Journal.fetch, Env.committed, checked_ok] at fetched
  obtain ⟨_, _, _, _, _, r, _, request, _, v, _, rfl⟩ := fetched
  refine ⟨_, _, policy 1, ran, h.prepared, phase, request, by rw [all], ?_⟩
  have second := (Node.validateRetained_eq_ok second).1
  exact Fin.forall_fin_two.mpr ⟨(Node.validateRetained_eq_ok first).1, same ▸ second⟩

theorem Call.run_change {c : Call} (ran : c.run E host trust s = .ok s') :
    Change E host trust s c s' := by
  cases c with
  | preparePair opened plan request token now writes =>
    simp only [run, checked_ok] at ran
    obtain ⟨closed, node, written, rfl⟩ := ran
    exact .prepare opened (.fresh plan request token) rfl now writes rfl
      (fun i => Option.isNone_iff_eq_none.mp (closed i)) node (preparePair_effect written)
      (preparePair_paired written)
  | openExisting i identity expected authority =>
    simp only [run, checked_ok] at ran
    obtain ⟨closed, h, opened, rfl⟩ := ran
    obtain ⟨found, live, _, identity, role, _⟩ := Node.openExisting_eq_ok opened
    exact .open i h (Option.isNone_iff_eq_none.mp closed) found live ⟨identity.symm, role.symm⟩
  | decidePrepared now policy =>
    simp only [run, run_ok, opened_eq_ok] at ran
    obtain ⟨h, held, h', held', ⟨j, c⟩, decided, rfl⟩ := ran
    simp only [Maintenance.decidePrepared, checked_ok] at decided
    obtain ⟨⟨_, _, _, same⟩, ⟨phase, _⟩, _, _, decided⟩ := decided
    exact .journal (.decide h.prepared.request h.prepared.token now
        (preparedPolicy (policy 0) h.prepared.request)) j
      (bind_eq_ok.mpr ⟨_, decided, rfl⟩) ⟨h, h', held, held', same, phase, rfl, rfl⟩
      (fun _ _ _ _ none => by cases none)
  | recordDecided i policy =>
    simp only [run, run_ok, opened_eq_ok] at ran
    obtain ⟨h, held, ⟨n', h'⟩, done, rfl⟩ := ran
    exact .turn i h held _ rfl n' h' (Node.recordDecided_turn done)
  | applyDecided i policy random =>
    simp only [run, run_ok, opened_eq_ok] at ran
    obtain ⟨h, held, ⟨n', h'⟩, done, rfl⟩ := ran
    exact .turn i h held _ rfl n' h' (Node.applyDecided_turn done)
  | acknowledgeApplied i policy =>
    simp only [run, run_ok, opened_eq_ok] at ran
    obtain ⟨h, held, j, done, rfl⟩ := ran
    simp only [Node.acknowledgeApplied, checked_ok] at done
    obtain ⟨phase, retained, decision, _, _, done⟩ := done
    exact .journal (.acknowledge decision _ _) j done ⟨i, h, held, phase, retained⟩
      (fun _ _ _ _ none => by cases none)
  | completeAuthority policy =>
    simp only [run, run_ok, opened_eq_ok] at ran
    obtain ⟨h, held, h', held', j, done, rfl⟩ := ran
    obtain ⟨decision, id, asked, done, backs⟩ := completeAuthority_backs done
    exact .journal (.complete decision id asked) j done backs
      (fun _ _ _ _ none => by cases none)
  | recordComplete i policy =>
    simp only [run, run_ok, opened_eq_ok] at ran
    obtain ⟨h, held, ⟨n', h'⟩, done, rfl⟩ := ran
    exact .turn i h held _ rfl n' h' (Node.recordComplete_turn done)
  | finalizeNode i policy =>
    simp only [run, run_ok, opened_eq_ok] at ran
    obtain ⟨h, held, ⟨n', h'⟩, done, rfl⟩ := ran
    exact .turn i h held _ rfl n' h' (Node.finalizeNode_turn done)
  | beginAbort i abort token now =>
    simp only [run, run_ok, opened_eq_ok] at ran
    obtain ⟨h, held, ⟨n', h'⟩, done, rfl⟩ := ran
    exact .turn i h held _ rfl n' h' (Node.beginAbort_turn done)
  | abortAuthority abort token now policy =>
    simp only [run, run_ok, opened_eq_ok] at ran
    obtain ⟨h, held, h', held', ⟨j, c⟩, done, rfl⟩ := ran
    simp only [Maintenance.abortAuthority, checked_ok] at done
    obtain ⟨⟨_, _, _, same⟩, done⟩ := done
    refine .journal (.abort abort token now _) j (bind_eq_ok.mpr ⟨_, done, rfl⟩) ?_ ?_
    · exact ⟨h, h', held, held', same, fun scope ok => abortingPolicy_applicable ok⟩
    · intro abort' token' now' policy' named
      cases named
      exact ⟨policy, rfl⟩
  | finishAbort i policy =>
    simp only [run, run_ok, opened_eq_ok] at ran
    obtain ⟨h, held, ⟨n', h'⟩, done, rfl⟩ := ran
    exact .turn i h held _ rfl n' h' (Node.finishAbort_turn done)

namespace Site

variable {meets : Site T F C V → Call → Prop} {call : Option Call} {i : Fin 2}

/-- A step that leaves the journal alone, as one node sees it. A dropped handle and ordinary
service are no call. -/
inductive View (E : Env T) (host : Host F C V) (trust : Trust) (s s' : Site T F C V)
    (call : Option Call) (i : Fin 2) : Prop
  | same (node : s'.node i = s.node i)
    (handle : ∀ h, s'.handle i = some h → s.handle i = some h ∨
      (s.node i).progress = some h.prepared ∧ h.finalized = false ∧
        h.identity = (s.node i).identity ∧ h.role = (s.node i).role)
  | prepare (opened : Fin 2 → Opened) (r : Prepared) (fresh : r = .fresh r.plan r.request r.token)
    (now writes : ℕ) (named : call = some (.preparePair opened r.plan r.request r.token now writes))
    (closed : s'.handle i = none) (absent : (s.node i).marker = none)
    (checked : (s.node i).preflight E host (opened i) r = .ok ()) (paired : Paired s.node)
    (node : s'.node i = (s.node i).prepared E r)
  | turn (h : Handle) (held : s.handle i = some h) (c : Call) (made : call = some c) (kind : Kind)
    (named : c.turn? = some (i, kind)) (n' : Node F C V) (h' : Handle)
    (turned : Turn E host trust s.journal (s.node i) h kind n' h') (node : s'.node i = n')
    (handle : s'.handle i = some h')
  | serve (closed : s'.handle i = none) (idle : (s.node i).marker = none)
    (serves : (s.node i).Serves (s'.node i))

theorem Allowed.view (allowed : Allowed E host trust meets s s') :
    (∃ call, (∀ c ∈ call, meets s c ∧ c.run E host trust s = .ok s') ∧ s'.journal = s.journal ∧
      ∀ i, View E host trust s s' call i) ∨
    ∃ call c j, meets s call ∧ c.run E trust s.journal = .ok j ∧ s.Guards E host trust c ∧
      (∀ abort token now policy, c = .abort abort token now policy →
        ∃ asks, call = .abortAuthority abort token now asks) ∧ s' = { s with journal := j } := by
  rcases allowed with ⟨call, met, ran⟩ | idle
  · have made : ∀ c ∈ some call, meets s c ∧ c.run E host trust s = .ok s' := by
      rintro c ⟨⟩
      exact ⟨met, ran⟩
    cases call.run_change ran with
    | prepare opened r fresh now writes named closed node written paired =>
      refine .inl ⟨some call, made, rfl, fun i => ?_⟩
      rcases (written i).2 with same | ⟨absent, checked, _, same⟩
      · exact .same same fun h held => .inl held
      · exact .prepare opened r fresh now writes (congrArg some named) (closed i) absent checked paired
          same
    | «open» k h free found live owner =>
      refine .inl ⟨some call, made, rfl, fun i => .same rfl fun g held => ?_⟩
      by_cases here : i = k
      · subst here
        obtain rfl : h = g := by simpa using held
        exact .inr ⟨found, live, owner⟩
      · exact .inl (by simpa [here] using held)
    | turn k h held kind named n' h' turned =>
      refine .inl ⟨some call, made, rfl, fun i => ?_⟩
      by_cases here : i = k
      · subst here
        exact .turn h held call rfl kind named n' h' turned (Function.update_self ..)
          (Function.update_self ..)
      · exact .same (Function.update_of_ne here ..) fun g mine =>
          .inl (by simpa [Site.put, here] using mine)
    | journal c j recorded guarded named =>
      exact .inr ⟨call, c, j, met, recorded, guarded, named, rfl⟩
  · cases idle with
    | close k =>
      refine .inl ⟨none, by simp, rfl, fun i => .same rfl fun h held => .inl ?_⟩
      by_cases here : i = k
      · simp [here] at held
      · simpa [here] using held
    | ordinary k n free idle serves =>
      refine .inl ⟨none, by simp, rfl, fun i => ?_⟩
      by_cases here : i = k
      · subst here
        exact .serve free idle (by simpa using serves)
      · exact .same (Function.update_of_ne here ..) fun h held => .inl held

namespace View

variable (view : View E host trust s s' call i)
include view

theorem owner : (s'.node i).identity = (s.node i).identity ∧ (s'.node i).role = (s.node i).role := by
  cases view with
  | same node => rw [node]; exact ⟨rfl, rfl⟩
  | prepare _ _ _ _ _ _ _ _ _ _ node => rw [node]; exact ⟨rfl, rfl⟩
  | turn _ _ _ _ _ _ _ _ turned node => rw [node]; cases turned <;> exact ⟨rfl, rfl⟩
  | serve _ _ serves => exact ⟨serves.identity, serves.role⟩

theorem owners (owner : ∀ h, s.handle i = some h →
      h.identity = (s.node i).identity ∧ h.role = (s.node i).role) (h : Handle)
    (held : s'.handle i = some h) :
    h.identity = (s'.node i).identity ∧ h.role = (s'.node i).role := by
  rw [view.owner.1, view.owner.2]
  cases view with
  | same _ handle =>
    rcases handle h held with old | ⟨_, _, own⟩
    · exact owner h old
    · exact own
  | prepare _ _ _ _ _ _ closed | serve closed =>
    rw [closed] at held
    cases held
  | turn g was _ _ _ _ _ _ turned _ handle =>
    obtain rfl := Option.some.inj (handle.symm.trans held)
    have own := owner g was
    cases turned <;> exact own

end View

end Site

end TerrapiVault.Maintenance
