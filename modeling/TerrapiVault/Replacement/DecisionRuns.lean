import TerrapiVault.Replacement.Decision
import TerrapiVault.Recovery.Sample

/-! Runs of the decision journal. A call either leaves the file alone or saves a record
that its own reader accepts and that extends the one stored before. -/
namespace TerrapiVault.Replacement

open Replication (Fault Result ensure)
open Recovery (Id both)
open Transaction (Tx)

inductive DecisionCall where
  | status
  | decide (request : Request) (token : String) (policy : Policy)
  | fetch (request : Request) (policy : Policy)
  | acknowledge (decision : CommittedDecision) (member : Prepared) (policy : Policy)
  | complete (request : Request) (id : Id) (policy : Policy)

inductive Answer where
  | done
  | status (value : Status)
  | decision (value : CommittedDecision)

/-- The record may only gain acknowledgements and a completion. -/
structure Record.Grows (r r' : Record) : Prop where
  request : r'.request = r.request
  token : r'.token = r.token
  grantId : r'.grantId = r.grantId
  acknowledgements : ∀ i, r.acknowledgements i = true → r'.acknowledgements i = true
  completion : ∀ id, r.completion = some id → r'.completion = some id

theorem Record.Grows.refl (r : Record) : r.Grows r :=
  ⟨rfl, rfl, rfl, fun _ set => set, fun _ set => set⟩

variable {r : Record} {call : DecisionCall} {answer : Answer} {stored : Option Record}

theorem Record.Grows.trans {r' r'' : Record} (first : r.Grows r') (second : r'.Grows r'') :
    r.Grows r'' where
  request := second.request.trans first.request
  token := second.token.trans first.token
  grantId := second.grantId.trans first.grantId
  acknowledgements i set := second.acknowledgements i (first.acknowledgements i set)
  completion id set := second.completion id (first.completion id set)

section Calls

variable {T : Type → Type} (E : GrantEnv T) (scope : Scope)

def DecisionCall.tx : DecisionCall → Tx (File T) Fault Answer
  | .status => do
    let value ← File.status E scope
    pure (.status value)
  | .decide request token policy => do
    File.decide E scope request token policy
    pure .done
  | .fetch request policy => do
    let value ← File.fetch E scope request policy
    pure (.decision value)
  | .acknowledge decision member policy => do
    File.acknowledge E scope decision member policy
    pure .done
  | .complete request id policy => do
    File.complete E scope request id policy
    pure .done

def DecisionCall.run (call : DecisionCall) (file : File T) : Result Answer × File T :=
  (call.tx E scope).run file

def File.play (calls : List DecisionCall) (file : File T) : File T :=
  calls.foldl (fun file call => (call.run E scope file).2) file

/-- A journal handle comes from `create` or from `open`. -/
def File.Held (file : File T) : Prop :=
  File.create E scope = .ok file ∨ file.openExisting E scope = .ok ()

/-- What an answer says about the record stored before and after the call. -/
def DecisionCall.Tells (before after : Option Record) : DecisionCall → Answer → Prop
  | .status, answer => answer = .status ⟨after.map (·.request),
      after.elim (both false) (·.acknowledgements), after.bind (·.completion)⟩
  | .decide request token _, _ => ∃ r ∈ after, r.request = request ∧ r.token = token
  | .fetch request _, answer => ∃ r ∈ after, r.request = request ∧ r.completion = none ∧
      answer = .decision (File.committed E r)
  | .acknowledge decision member _, _ => ∃ r ∈ before, File.committed E r = decision ∧
      ∃ i, r.request.prepared i = member ∧ ∃ r' ∈ after, r'.acknowledgements i = true
  | .complete request id _, _ => ∃ r ∈ before, r.request = request ∧
      r.acknowledgements = both true ∧ ∃ r' ∈ after, r'.completion = some id

end Calls

section Steps

variable {T : Type → Type} {E : GrantEnv T} {scope : Scope}

/-- A record that `save` stores and `read` takes back. -/
structure Record.Acceptable (E : GrantEnv T) (scope : Scope) (r : Record) : Prop where
  fits : E.bytes (E.encode r) ≤ maxDecision
  valid : r.request.validate scope.baseline = .ok ()
  sound : r.Sound

variable {file : File T} {before : Option Record}

theorem File.read_eq_ok (accepted : file.read E scope = .ok before) :
    file.checkScope E scope = .ok () ∧
      ∀ r ∈ before, r.request.validate scope.baseline = .ok () ∧ r.Sound := by
  rw [File.read, unit_bind_eq_ok] at accepted
  refine ⟨accepted.1, ?_⟩
  match stored : file.decision with
  | none =>
    rw [stored] at accepted
    obtain rfl : none = before := Except.ok.inj accepted.2
    intro r none
    cases none
  | some cell =>
    rw [stored] at accepted
    match loaded : File.readCell E scope cell with
    | .error e => simp [loaded] at accepted
    | .ok r =>
      have same := accepted.2
      simp only [loaded] at same
      obtain rfl : some r = before := Except.ok.inj same
      simp only [File.readCell, run_ok] at loaded
      obtain ⟨_, _, _, valid, sound, rfl⟩ := loaded
      rintro _ ⟨⟩
      exact ⟨valid, Replication.ensure_eq_ok.mp sound⟩

theorem File.read_cell (bound : file.checkScope E scope = .ok ())
    (acceptable : r.Acceptable E scope) :
    File.read E scope { file with decision := some (E.cell r) } = .ok (some r) := by
  have parsed : E.parse (E.cell r).record = .ok r := by
    rw [Recovery.Env.parse, Recovery.require_eq_ok]
    exact E.decode_encode r
  have loaded : File.readCell E scope (E.cell r) = .ok r := by
    simp only [File.readCell, run_ok]
    exact ⟨Replication.ensure_eq_ok.mpr ⟨acceptable.fits, rfl⟩, r, parsed,
      acceptable.valid, Replication.ensure_eq_ok.mpr acceptable.sound, rfl⟩
  rw [File.read, unit_bind_eq_ok]
  refine ⟨bound, ?_⟩
  simp only [loaded]
  rfl

theorem File.position_eq_some {prepared : Fin 2 → Prepared} {member : Prepared} {i : Fin 2}
    (found : File.position prepared member = some i) : prepared i = member := by
  unfold File.position at found
  split at found
  · rename_i same
    rw [← Option.some.inj found, same]
  · split at found
    · rename_i same
      rw [← Option.some.inj found, same]
    · cases found

theorem File.settles_readTx_bind {α : Type} {f : Option Record → Tx (File T) Fault α}
    {s : Transaction.Staged (File T)} {post : α → File T → Prop} {stored : Option Record}
    (loaded : s.working.read E scope = .ok stored) :
    (File.readTx E scope >>= f).Settles s post ↔ (f stored).Settles s post := by
  simp [File.readTx, Tx.Settles, Tx.read, Tx.lift, bind, loaded]

theorem File.settles_save_commit {s : Transaction.Staged (File T)} {post : Unit → File T → Prop} :
    (File.save E r >>= fun _ => Tx.commit).Settles s post ↔
      (E.bytes (E.encode r) ≤ maxDecision →
        post () { s.working with decision := some (E.cell r) }) := by
  unfold File.save
  by_cases fits : E.bytes (E.encode r) ≤ maxDecision
  · simp [Tx.Settles, Tx.read, Tx.write, Tx.commit, Tx.lift, bind, ensure, Checked.ensure, fits]
  · simp [Tx.Settles, Tx.lift, bind, ensure, Checked.ensure, fits]

/-- The postcondition of a call on a file whose stored record is `before`. -/
def DecisionCall.Meets (E : GrantEnv T) (scope : Scope) (before : Option Record)
    (call : DecisionCall) (answer : Answer) (file : File T) : Prop :=
  ∃ after, file.read E scope = .ok after ∧ (∀ r ∈ before, ∃ r' ∈ after, r.Grows r') ∧
    call.Tells E before after answer

theorem DecisionCall.meets_of_same (accepted : file.read E scope = .ok before)
    (tells : call.Tells E before before answer) : call.Meets E scope before answer file :=
  ⟨before, accepted, fun r stored => ⟨r, stored, .refl r⟩, tells⟩

theorem DecisionCall.meets_of_saved (accepted : file.read E scope = .ok before)
    (acceptable : r.Acceptable E scope) (grows : ∀ r' ∈ before, r'.Grows r)
    (tells : call.Tells E before (some r) answer) :
    call.Meets E scope before answer { file with decision := some (E.cell r) } :=
  ⟨some r, File.read_cell (File.read_eq_ok accepted).1 acceptable,
    fun r' stored => ⟨r, rfl, grows r' stored⟩, tells⟩

variable (accepted : file.read E scope = .ok before)
include accepted

theorem DecisionCall.status_settles :
    (DecisionCall.status.tx E scope).Settles ⟨file, file⟩
      (DecisionCall.status.Meets E scope before) := by
  unfold DecisionCall.tx File.status
  rw [Tx.settles_bind_pure, File.settles_readTx_bind accepted]
  exact DecisionCall.meets_of_same accepted rfl

theorem DecisionCall.decide_settles (request : Request) (token : String) (policy : Policy) :
    ((DecisionCall.decide request token policy).tx E scope).Settles ⟨file, file⟩
      ((DecisionCall.decide request token policy).Meets E scope before) := by
  unfold DecisionCall.tx File.decide
  simp only [Tx.settles_bind_pure, Tx.settles_lift_bind]
  intro _ valid _ limit _ _
  rw [File.settles_readTx_bind accepted]
  cases before with
  | some record =>
    rw [Tx.settles_lift]
    intro _ same
    exact DecisionCall.meets_of_same accepted
      ⟨record, rfl, (Replication.ensure_eq_ok.mp same)⟩
  | none =>
    unfold File.decideNew
    simp only [Tx.settles_lift_bind]
    intro ctx _ _ _ grant verified _ _ _ _ _ _
    rw [File.settles_save_commit]
    intro fits
    obtain ⟨nonempty, nonzero⟩ := GrantEnv.verify_eq_ok verified
    have acceptable : Record.Acceptable E scope ⟨request, token, grant.grantId, both false, none⟩ :=
      ⟨fits, valid, nonempty, Replication.ensure_eq_ok.mp limit, nonzero, by simp⟩
    exact DecisionCall.meets_of_saved accepted acceptable (by simp) ⟨_, rfl, rfl, rfl⟩

theorem DecisionCall.fetch_settles (request : Request) (policy : Policy) :
    ((DecisionCall.fetch request policy).tx E scope).Settles ⟨file, file⟩
      ((DecisionCall.fetch request policy).Meets E scope before) := by
  unfold DecisionCall.tx File.fetch
  rw [Tx.settles_bind_pure, Tx.settles_lift_bind]
  intro _ _
  rw [File.settles_readTx_bind accepted]
  simp only [Tx.settles_lift_bind, Recovery.require_eq_ok, Replication.ensure_eq_ok]
  intro r stored _ bound
  rw [Tx.settles_pure]
  exact DecisionCall.meets_of_same accepted ⟨r, stored, bound.1, bound.2, rfl⟩

theorem DecisionCall.acknowledge_settles (decision : CommittedDecision) (member : Prepared)
    (policy : Policy) :
    ((DecisionCall.acknowledge decision member policy).tx E scope).Settles ⟨file, file⟩
      ((DecisionCall.acknowledge decision member policy).Meets E scope before) := by
  unfold DecisionCall.tx File.acknowledge
  rw [Tx.settles_bind_pure, Tx.settles_lift_bind]
  intro _ _
  rw [File.settles_readTx_bind accepted]
  simp only [Tx.settles_lift_bind, Recovery.require_eq_ok, Replication.ensure_eq_ok]
  intro r stored _ bound index found
  have same : File.committed E r = decision := by
    rw [File.committed, bound.1, bound.2.1, bound.2.2]
  have named : r.request.prepared index = member := File.position_eq_some found
  obtain ⟨valid, sound⟩ := (File.read_eq_ok accepted).2 r stored
  split
  · rename_i set
    rw [Tx.settles_pure]
    exact DecisionCall.meets_of_same accepted ⟨r, stored, same, index, named, r, stored, set⟩
  · simp only [Tx.settles_lift_bind]
    intro _ _ _ _
    rw [File.settles_save_commit]
    intro fits
    have kept : ∀ i, r.acknowledgements i = true →
        Function.update r.acknowledgements index true i = true := by
      intro i set
      by_cases here : i = index
      · rw [here, Function.update_self]
      · rw [Function.update_of_ne here, set]
    refine DecisionCall.meets_of_saved accepted ⟨fits, valid, sound.1, sound.2.1, sound.2.2.1, ?_⟩
      ?_ ⟨r, stored, same, index, named, _, rfl, Function.update_self ..⟩
    · intro id set
      obtain ⟨nonzero, complete⟩ := sound.2.2.2 id set
      refine ⟨nonzero, funext fun i => kept i ?_⟩
      rw [complete]
      rfl
    · intro r' stored'
      obtain rfl : r = r' := Option.mem_unique stored stored'
      exact ⟨rfl, rfl, rfl, kept, fun _ set => set⟩

theorem DecisionCall.complete_settles (request : Request) (id : Id) (policy : Policy) :
    ((DecisionCall.complete request id policy).tx E scope).Settles ⟨file, file⟩
      ((DecisionCall.complete request id policy).Meets E scope before) := by
  unfold DecisionCall.tx File.complete
  simp only [Tx.settles_bind_pure, Tx.settles_lift_bind]
  intro _ nonzero _ _
  rw [File.settles_readTx_bind accepted]
  simp only [Tx.settles_lift_bind, Recovery.require_eq_ok, Replication.ensure_eq_ok]
  intro r stored _ bound
  obtain ⟨valid, sound⟩ := (File.read_eq_ok accepted).2 r stored
  cases completion : r.completion with
  | some previous =>
    rw [Tx.settles_lift]
    intro _ same
    obtain rfl : previous = id := Replication.ensure_eq_ok.mp same
    exact DecisionCall.meets_of_same accepted
      ⟨r, stored, bound.1, bound.2, r, stored, completion⟩
  | none =>
    rw [File.settles_save_commit]
    intro fits
    refine DecisionCall.meets_of_saved accepted ⟨fits, valid, sound.1, sound.2.1, sound.2.2.1, ?_⟩
      ?_ ⟨r, stored, bound.1, bound.2, _, rfl, rfl⟩
    · rintro _ ⟨⟩
      exact ⟨Replication.ensure_eq_ok.mp nonzero, bound.2⟩
    · intro r' stored'
      obtain rfl : r = r' := Option.mem_unique stored stored'
      refine ⟨rfl, rfl, rfl, fun _ set => set, fun previous set => ?_⟩
      rw [completion] at set
      cases set

theorem DecisionCall.settles (call : DecisionCall) :
    (call.tx E scope).Settles ⟨file, file⟩ (call.Meets E scope before) := by
  cases call with
  | status => exact DecisionCall.status_settles accepted
  | decide request token policy => exact DecisionCall.decide_settles accepted request token policy
  | fetch request policy => exact DecisionCall.fetch_settles accepted request policy
  | acknowledge decision member policy =>
    exact DecisionCall.acknowledge_settles accepted decision member policy
  | complete request id policy => exact DecisionCall.complete_settles accepted request id policy

end Steps

section Runs

variable {T : Type → Type} {E : GrantEnv T} {scope : Scope} {file : File T}

theorem DecisionCall.run_cases (call : DecisionCall) (accepted : file.read E scope = .ok stored) :
    (∃ answer, (call.run E scope file).1 = .ok answer ∧
        call.Meets E scope stored answer (call.run E scope file).2) ∨
      (∃ e, (call.run E scope file).1 = .error e) ∧ (call.run E scope file).2 = file :=
  (DecisionCall.settles accepted call).run_cases

theorem DecisionCall.run_grows {before : Option Record} (call : DecisionCall)
    (accepted : file.read E scope = .ok before) :
    ∃ after, (call.run E scope file).2.read E scope = .ok after ∧
      ∀ r ∈ before, ∃ r' ∈ after, r.Grows r' := by
  rcases call.run_cases accepted with ⟨answer, _, meets⟩ | ⟨_, same⟩
  · obtain ⟨after, accepted', grows, _⟩ := meets
    exact ⟨after, accepted', grows⟩
  · exact ⟨before, (congrArg _ same).trans accepted, fun r stored => ⟨r, stored, .refl r⟩⟩

theorem File.play_grows {before : Option Record} (accepted : file.read E scope = .ok before)
    (calls : List DecisionCall) :
    ∃ after, (file.play E scope calls).read E scope = .ok after ∧
      ∀ r ∈ before, ∃ r' ∈ after, r.Grows r' := by
  induction calls generalizing file before with
  | nil => exact ⟨before, accepted, fun r stored => ⟨r, stored, .refl r⟩⟩
  | cons call rest ih =>
    obtain ⟨middle, accepted', first⟩ := call.run_grows accepted
    obtain ⟨after, reached, second⟩ := ih accepted'
    refine ⟨after, reached, fun r stored => ?_⟩
    obtain ⟨r', stored', grows⟩ := first r stored
    obtain ⟨r'', stored'', grows'⟩ := second r' stored'
    exact ⟨r'', stored'', grows.trans grows'⟩

theorem DecisionCall.status_run (accepted : file.read E scope = .ok stored) :
    (DecisionCall.status.run E scope file).1 = .ok (.status ⟨stored.map (·.request),
      stored.elim (both false) (·.acknowledgements), stored.bind (·.completion)⟩) := by
  simp [DecisionCall.run, DecisionCall.tx, File.status, File.readTx, Tx.run, Tx.read, Tx.lift, bind,
    pure, accepted]

theorem File.Held.readable (held : file.Held E scope) : ∃ stored, file.read E scope = .ok stored := by
  rcases held with created | opened
  · simp only [File.create, run_ok] at created
    obtain ⟨_, fits, rfl⟩ := created
    refine ⟨none, ?_⟩
    have parsed : E.parse (E.encode scope) = .ok scope := by
      rw [Recovery.Env.parse, Recovery.require_eq_ok]
      exact E.decode_encode scope
    rw [File.read, unit_bind_eq_ok, File.checkScope, unit_bind_eq_ok,
      Replication.ensure_eq_ok, parsed, ok_bind, Replication.ensure_eq_ok]
    exact ⟨⟨⟨rfl, Replication.ensure_eq_ok.mp fits⟩, rfl⟩, rfl⟩
  · rw [File.openExisting, unit_bind_eq_ok] at opened
    cases loaded : file.read E scope with
    | ok stored => exact ⟨stored, rfl⟩
    | error e =>
      simp [File.status, File.readTx, Tx.run, Tx.read, Tx.lift, bind, Except.bind, loaded] at opened

/-- What a run of the journal has stored, and what every further call or run keeps of it. -/
structure File.Keeps (E : GrantEnv T) (scope : Scope) (file : File T) (stored : Option Record) :
    Prop where
  readable : file.read E scope = .ok stored
  completed : ∀ r ∈ stored, r.completion.isSome → r.acknowledgements = both true
  refused : ∀ (call : DecisionCall) (e : Fault), (call.run E scope file).1 = .error e →
    (call.run E scope file).2 = file
  answered : ∀ (call : DecisionCall) (answer : Answer), (call.run E scope file).1 = .ok answer →
    call.Meets E scope stored answer (call.run E scope file).2
  grows : ∀ later, ∃ after, (file.play E scope later).read E scope = .ok after ∧
    ∀ r ∈ stored, ∃ r' ∈ after, r.Grows r'
  decided : ∀ request token policy answer,
    ((DecisionCall.decide request token policy).run E scope file).1 = .ok answer →
    ∃ grant, ∀ later, ∃ r value,
      let reached := file.play E scope (.decide request token policy :: later)
      reached.read E scope = .ok (some r) ∧ r.request = request ∧ r.token = token ∧
        r.grantId = grant ∧ (DecisionCall.status.run E scope reached).1 = .ok (.status value) ∧
        value.request = some request ∧
        ∀ request' token' policy' answer',
          ((DecisionCall.decide request' token' policy').run E scope reached).1 = .ok answer' →
          request' = request ∧ token' = token

theorem DecisionCall.run_meets (accepted : file.read E scope = .ok stored)
    (replied : (call.run E scope file).1 = .ok answer) :
    call.Meets E scope stored answer (call.run E scope file).2 := by
  rcases call.run_cases accepted with ⟨answer', replied', meets⟩ | ⟨⟨e, refused⟩, _⟩
  · obtain rfl : answer' = answer := ok_unique replied' replied
    exact meets
  · rw [refused] at replied
    cases replied

theorem File.decided_forever {request : Request} {token : String} {policy : Policy}
    (accepted : file.read E scope = .ok stored)
    (replied : ((DecisionCall.decide request token policy).run E scope file).1 = .ok answer) :
    ∃ grant, ∀ later, ∃ r,
      (file.play E scope (.decide request token policy :: later)).read E scope = .ok (some r) ∧
        r.request = request ∧ r.token = token ∧ r.grantId = grant := by
  obtain ⟨after, accepted', _, tells⟩ := DecisionCall.run_meets accepted replied
  obtain ⟨r, here, rfl, rfl⟩ := tells
  refine ⟨r.grantId, fun later => ?_⟩
  obtain ⟨last, reached, grows⟩ := File.play_grows accepted' later
  obtain ⟨r', there, kept⟩ := grows r here
  obtain rfl : last = some r' := there
  exact ⟨r', reached, kept.request, kept.token, kept.grantId⟩

theorem File.decide_repeats {request : Request} {token : String} {policy : Policy}
    (accepted : file.read E scope = .ok (some r))
    (replied : ((DecisionCall.decide request token policy).run E scope file).1 = .ok answer) :
    request = r.request ∧ token = r.token := by
  obtain ⟨after, _, grows, r', here, rfl, rfl⟩ := DecisionCall.run_meets accepted replied
  obtain ⟨r'', there, kept⟩ := grows r rfl
  obtain rfl : r' = r'' := Option.mem_unique here there
  exact ⟨kept.request, kept.token⟩

/-- Whatever was called before, the journal is readable and its decision is final. -/
theorem decisions_only_grow (held : file.Held E scope) (calls : List DecisionCall) :
    ∃ stored, (file.play E scope calls).Keeps E scope stored := by
  obtain ⟨start, accepted⟩ := held.readable
  obtain ⟨stored, reached, _⟩ := File.play_grows accepted calls
  refine ⟨stored, reached, ?_, ?_, fun call answer => DecisionCall.run_meets reached,
    File.play_grows reached, ?_⟩
  · intro r here complete
    obtain ⟨id, set⟩ := Option.isSome_iff_exists.mp complete
    exact (((File.read_eq_ok reached).2 r here).2.2.2.2 id set).2
  · intro call e refused
    rcases call.run_cases reached with ⟨answer, replied, _⟩ | ⟨_, same⟩
    · rw [refused] at replied
      cases replied
    · exact same
  · intro request token policy answer replied
    obtain ⟨grant, forever⟩ := File.decided_forever reached replied
    refine ⟨grant, fun later => ?_⟩
    obtain ⟨r, accepted', rfl, rfl, rfl⟩ := forever later
    refine ⟨r, _, accepted', rfl, rfl, rfl, DecisionCall.status_run accepted', rfl, ?_⟩
    intro request' token' policy' answer' replied'
    exact File.decide_repeats accepted' replied'

end Runs

/-! A replacement whose documents can be evaluated: every payload carries the one grant
of the plan, and every hook says yes. -/
namespace Sample

open Recovery.Sample (mark profile)

def baseline : Baseline where
  scope := "scope"
  revision := 0
  digest := mark 1
  oldPrimary := mark 1
  survivor := mark 2
  survivorGeneration := mark 2
  checkpoint := mark 1

def plan : Plan := ⟨mark 1, baseline, 1, mark 3⟩

def candidate : Prepared := ⟨mark 3, mark 3, mark 1⟩

def survivor : Prepared := ⟨mark 2, mark 2, mark 1⟩

def request : Request := ⟨mark 1, plan, fun i => if i = 0 then candidate else survivor⟩

def scope : Scope := ⟨"install", "region", profile, baseline⟩

def context : Context :=
  ⟨profile, [("key", [])], 0, 10, "install", "region", some ⟨plan, mark 1, mark 1⟩, true⟩

def env : GrantEnv fun α => α where
  toEnv := Recovery.Sample.env
  grant _ := some ⟨1, "issuer", "audience", "replace_primary", "install", "region", mark 1, 0, 0, 10,
    plan, mark 1⟩

def token : String := "t.p.z"

def policy : Policy where
  continuity _ _ := .ok ()
  context _ _ := .ok context
  prepared _ _ := .ok ()
  applied _ _ _ := .ok ()

def created : File fun α => α := ⟨2, scope, none⟩

def calls : List DecisionCall :=
  [.decide request token policy,
    .acknowledge ⟨request, mark 5, mark 1⟩ candidate policy,
    .acknowledge ⟨request, mark 5, mark 1⟩ survivor policy,
    .complete request (mark 7) policy]

/-- A decision that is acknowledged by both members and completed. -/
theorem decisions_only_grow_completed :
    File.create env scope = .ok created ∧
      (created.play env scope calls).read env scope = .ok (some ⟨request, token, mark 1,
        Function.update (Function.update (both false) 0 true) 1 true, some (mark 7)⟩) ∧
      ∃ stored, (created.play env scope calls).Keeps env scope stored :=
  ⟨rfl, rfl, decisions_only_grow (.inl rfl) calls⟩

end Sample

end TerrapiVault.Replacement
