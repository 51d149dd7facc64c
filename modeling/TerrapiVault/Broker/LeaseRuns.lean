import TerrapiVault.Broker.Leases

/-! The lease engine over every sequence of calls. `Coherent` ties each lease
to its session; a run keeps the ids that its calls reported as revoked, and
those are the flagged leases, each once. -/

namespace TerrapiVault.Broker.LeaseEngine

variable {I : Type}

/-- A lease under its session's ceiling and, while unrevoked, its listed child. -/
def Housed (e : LeaseEngine I) (k : I) (l : Lease I) : Prop :=
  l.expiresAt ≤ l.maxDeadline ∧
    ∃ s, e.sessions.get l.parentSession = some s ∧ l.maxDeadline ≤ s.expiresAt ∧
      (l.revoked = false → k ∈ s.children ∧ s.ended = false)

structure Coherent (e : LeaseEngine I) : Prop where
  sessionKey : e.sessions.Keyed Session.id
  leaseKey : e.leases.Keyed Lease.id
  housed : ∀ k l, e.leases.get k = some l → e.Housed k l

theorem coherent_new : (new : LeaseEngine I).Coherent where
  sessionKey := by simp [new, Registry.Keyed]
  leaseKey := by simp [new, Registry.Keyed]
  housed := by simp [new]

/-- A session that went on: same ceiling, no child lost, not ended meanwhile. -/
def Session.Continues (s s' : Session I) : Prop :=
  s'.id = s.id ∧ s'.expiresAt = s.expiresAt ∧ s.children ⊆ s'.children ∧ s'.ended = s.ended

def Continues (e e' : LeaseEngine I) : Prop :=
  ∀ k s, e.sessions.get k = some s → ∃ s', e'.sessions.get k = some s' ∧ Session.Continues s s'

variable {e e' : LeaseEngine I} {k : I} {l : Lease I} {s : Session I} {now : ℕ} {id : I}
  {ttlSecs maxTtlSecs : ℕ} {renewable : Bool} {increment : ℕ} {r : List I}

theorem Continues.housed (more : e.Continues e') (h : e.Housed k l) : e'.Housed k l := by
  obtain ⟨below, s, found, ceiling, child⟩ := h
  obtain ⟨s', found', -, expires, children, ended⟩ := more _ s found
  refine ⟨below, s', found', expires ▸ ceiling, fun clear => ?_⟩
  exact ⟨children (child clear).1, ended ▸ (child clear).2⟩

theorem Session.live_not_ended (live : s.live now = true) : s.ended = false := by
  simp only [Session.live, Bool.and_eq_true, Bool.not_eq_true'] at live
  exact live.1.1

variable [DecidableEq I]

def Fresh (e : LeaseEngine I) (id : I) : Prop :=
  e.sessions.get id = none ∧ e.leases.get id = none

theorem continues_insert {s' : Session I} (found : e.sessions.get k = some s)
    (same : e'.sessions = e.sessions.insert k s') (more : Session.Continues s s') :
    e.Continues e' := by
  intro x t at_x
  rw [same, Registry.get_insert]
  by_cases here : x = k
  · subst here
    rw [found, Option.some.injEq] at at_x
    exact ⟨s', if_pos rfl, at_x ▸ more⟩
  · exact ⟨t, by rw [if_neg here, at_x], rfl, rfl, fun _ h => h, rfl⟩

theorem Coherent.openSession (c : e.Coherent) (fresh : e.Fresh id)
    (now ttlSecs idleTimeoutSecs : ℕ) :
    (e.openSession now ttlSecs idleTimeoutSecs id).Coherent where
  sessionKey := c.sessionKey.insert rfl
  leaseKey := c.leaseKey
  housed k l found := by
    have more : e.Continues (e.openSession now ttlSecs idleTimeoutSecs id) := by
      intro x s at_x
      have other : x ≠ id := by
        rintro rfl
        rw [fresh.1] at at_x
        cases at_x
      refine ⟨s, ?_, rfl, rfl, fun _ h => h, rfl⟩
      rw [LeaseEngine.openSession, setSession_sessions, Registry.get_insert_of_ne _ _ other, at_x]
    exact more.housed (c.housed k l found)

theorem issueLease_eq_ok {session : I}
    (done : e.issueLease now session ttlSecs maxTtlSecs renewable id = .ok e') :
    ∃ s, e.sessions.get session = some s ∧ s.live now = true ∧
      e' = (e.setLease id
          (leaseOf (s.touch now) now session ttlSecs maxTtlSecs renewable id)).setSession session
        { s.touch now with children := s.children ++ [id] } := by
  unfold issueLease at done
  split at done
  · cases done
  next s found =>
    split at done
    next live => exact ⟨s, found, live, (Except.ok.inj done).symm⟩
    · cases done

theorem Coherent.issueLease (c : e.Coherent) {session : I}
    (done : e.issueLease now session ttlSecs maxTtlSecs renewable id = .ok e') : e'.Coherent := by
  obtain ⟨s, found, live, rfl⟩ := issueLease_eq_ok done
  have alive := Session.live_not_ended live
  have more := continues_insert found
    (setSession_sessions (e.setLease id (leaseOf (s.touch now) now session ttlSecs maxTtlSecs
      renewable id)) session { s.touch now with children := s.children ++ [id] })
    ⟨rfl, rfl, List.subset_append_left _ _, rfl⟩
  constructor
  case sessionKey => exact c.sessionKey.insert (c.sessionKey session s found)
  case leaseKey => exact c.leaseKey.insert rfl
  case housed =>
    intro k l at_k
    rw [setSession_leases, setLease_leases, Registry.get_insert] at at_k
    split at at_k
    next same =>
      rw [← Option.some.inj at_k]
      refine ⟨Nat.min_le_right _ _, _, Registry.get_insert_self .., Nat.min_le_right _ _, fun _ => ?_⟩
      exact ⟨by simp [same], alive⟩
    · exact more.housed (c.housed k l at_k)

theorem renew_eq_ok {left : ℕ} {lease : I} (done : e.renew now lease increment = .ok (left, e')) :
    ∃ l s, e.leases.get lease = some l ∧ l.revoked = false ∧
      e.sessions.get l.parentSession = some s ∧
      e' = (e.setLease lease (l.extended s now increment)).setSession l.parentSession
        (s.touch now) := by
  unfold renew at done
  split at done
  · cases done
  next l found =>
    split at done
    · cases done
    next clear =>
      split at done
      · cases done
      · split at done
        · cases done
        · split at done
          · cases done
          next s live =>
            simp only [Except.ok.injEq, Prod.mk.injEq] at done
            refine ⟨l, s, found, by simpa using clear, ?_, done.2.symm⟩
            exact (Option.filter_eq_some_iff.mp live).1

theorem Coherent.renew (c : e.Coherent) {left : ℕ} {lease : I}
    (done : e.renew now lease increment = .ok (left, e')) : e'.Coherent := by
  obtain ⟨l, s, found, clear, parent, rfl⟩ := renew_eq_ok done
  have more := continues_insert parent
    (setSession_sessions (e.setLease lease (l.extended s now increment)) l.parentSession
      (s.touch now))
    ⟨rfl, rfl, fun _ h => h, rfl⟩
  constructor
  case sessionKey => exact c.sessionKey.insert (c.sessionKey _ s parent)
  case leaseKey => exact c.leaseKey.insert (c.leaseKey lease l found)
  case housed =>
    intro k l' at_k
    rw [setSession_leases, setLease_leases, Registry.get_insert] at at_k
    split at at_k
    next same =>
      obtain ⟨-, held⟩ := more.housed (c.housed lease l found)
      rw [← Option.some.inj at_k, same]
      exact ⟨Nat.le_trans (Nat.min_le_right _ _) (Nat.min_le_left _ _), held⟩
    · exact more.housed (c.housed k l' at_k)

theorem Revoking.of_get (h : Revoking e r e') {l' : Lease I} (found : e'.leases.get k = some l') :
    ∃ l, e.leases.get k = some l ∧ l'.id = l.id ∧ l'.parentSession = l.parentSession ∧
      l'.expiresAt = l.expiresAt ∧ l'.maxDeadline = l.maxDeadline ∧
      (l'.revoked = false → l.revoked = false) := by
  rw [h.leases k, Option.map_eq_some_iff] at found
  obtain ⟨l, before, rfl⟩ := found
  refine ⟨l, before, rfl, rfl, rfl, rfl, fun clear => ?_⟩
  exact (Bool.or_eq_false_iff.mp clear).1

/-- A revoking call keeps the engine coherent when every session it ended has
no unrevoked child left. -/
theorem Coherent.revoking (c : e.Coherent) (h : Revoking e r e')
    (keyed : e'.sessions.Keyed Session.id)
    (sessions : ∀ k s, e.sessions.get k = some s → ∃ s', e'.sessions.get k = some s' ∧
      s'.expiresAt = s.expiresAt ∧ s'.children = s.children ∧
      (s'.ended = s.ended ∨ ∀ x ∈ s.children, ¬ e'.Unrevoked x)) : e'.Coherent where
  sessionKey := keyed
  leaseKey k l' found := by
    obtain ⟨l, before, same, -⟩ := h.of_get found
    rw [same]
    exact c.leaseKey k l before
  housed k l' found := by
    obtain ⟨l, before, -, parent, expires, ceiling, clear⟩ := h.of_get found
    obtain ⟨below, s, at_s, under, child⟩ := c.housed k l before
    obtain ⟨s', at_s', same, children, kept⟩ := sessions _ s at_s
    refine ⟨by rw [expires, ceiling]; exact below, s', parent ▸ at_s', ?_, fun unrevoked => ?_⟩
    · rw [ceiling, same]
      exact under
    · obtain ⟨mem, alive⟩ := child (clear unrevoked)
      rcases kept with ended | emptied
      · exact ⟨children ▸ mem, ended ▸ alive⟩
      · exact absurd ⟨l', found, unrevoked⟩ (emptied k mem)

theorem Coherent.revokeEach (c : e.Coherent) (ids : List I) : (e.revokeEach ids).2.Coherent := by
  refine c.revoking (e.revokeEach_revoking ids) ?_ ?_
  · rw [revokeEach_sessions]
    exact c.sessionKey
  · rw [revokeEach_sessions]
    exact fun k s found => ⟨s, found, rfl, rfl, .inl rfl⟩

theorem Coherent.revoke (c : e.Coherent) {x : I} (done : e.revoke x = .ok e') :
    Revoking e [x] e' ∧ e'.Coherent := by
  obtain ⟨l, found, clear, rfl⟩ := revoke_eq_ok done
  have h := Revoking.single found clear
  exact ⟨h, c.revoking h c.sessionKey fun k s at_k => ⟨s, at_k, rfl, rfl, .inl rfl⟩⟩

theorem Coherent.endOne (c : e.Coherent) (found : e.sessions.get k = some s) :
    (e.endOne k s).2.Coherent := by
  refine c.revoking (e.endOne_revoking k s) ?_ ?_
  · rw [endOne_sessions]
    exact c.sessionKey.insert (c.sessionKey k s found)
  · intro x t at_x
    rw [endOne_sessions, Registry.get_insert]
    by_cases same : x = k
    · subst same
      rw [found, Option.some.injEq] at at_x
      refine ⟨_, if_pos rfl, by rw [← at_x], by rw [← at_x], .inr fun y mem => ?_⟩
      exact revokeEach_done _ (at_x ▸ mem)
    · exact ⟨t, by rw [if_neg same, at_x], rfl, rfl, .inl rfl⟩

theorem endSession_eq_ok (done : e.endSession k = .ok (r, e')) :
    ∃ s, e.sessions.get k = some s ∧ e.endOne k s = (r, e') := by
  unfold endSession at done
  split at done
  · cases done
  next s found => exact ⟨s, found, Except.ok.inj done⟩

theorem Coherent.endEach (c : e.Coherent) (ids : List I) :
    Revoking e (e.endEach ids).1.revokedLeases (e.endEach ids).2 ∧
      (e.endEach ids).2.Coherent := by
  induction ids generalizing e with
  | nil => exact ⟨.refl e, c⟩
  | cons id ids ih =>
    unfold LeaseEngine.endEach
    split
    · exact ih c
    next s found =>
      obtain ⟨rest, coherent⟩ := ih (c.endOne found)
      exact ⟨(e.endOne_revoking id s).trans rest, coherent⟩

theorem endEach_sessions (e : LeaseEngine I) (ids : List I) (k : I) :
    (e.endEach ids).2.sessions.get k = (e.sessions.get k).map fun s =>
      { s with ended := s.ended || decide (k ∈ ids) } := by
  induction ids generalizing e with
  | nil => cases h : e.sessions.get k <;> simp [LeaseEngine.endEach, h]
  | cons id ids ih =>
    unfold LeaseEngine.endEach
    split
    next none =>
      rw [ih]
      cases h : e.sessions.get k with
      | none => rfl
      | some s =>
        have other : k ≠ id := by
          rintro rfl
          rw [none] at h
          cases h
        simp [other]
    next s found =>
      rw [ih, endOne_sessions, Registry.get_insert]
      by_cases same : k = id
      · subst same
        simp [found]
      · rw [if_neg same]
        cases e.sessions.get k <;> simp [same]

omit [DecidableEq I] in
theorem Coherent.mem_expiredSessions (c : e.Coherent) (found : e.sessions.get k = some s) :
    k ∈ e.expiredSessions now ↔
      s.ended = false ∧ (s.expiresAt ≤ now ∨ s.idleDeadline ≤ now) := by
  simp only [expiredSessions, List.mem_map, List.mem_filter, Registry.mem_values,
    Bool.and_eq_true, Bool.not_eq_true', Bool.or_eq_true, decide_eq_true_iff]
  constructor
  · rintro ⟨t, ⟨⟨j, at_j⟩, past⟩, same⟩
    rw [← same, c.sessionKey j t at_j, at_j, Option.some.injEq] at found
    exact found ▸ past
  · exact fun past => ⟨s, ⟨⟨k, found⟩, past⟩, c.sessionKey k s found⟩

omit [DecidableEq I] in
theorem Coherent.mem_expiredLeases (c : e.Coherent) (found : e.leases.get k = some l)
    (clear : l.revoked = false) (past : l.expiresAt ≤ now) : k ∈ e.expiredLeases now := by
  refine List.mem_map.mpr ⟨l, List.mem_filter.mpr ⟨?_, by simp [clear, past]⟩, c.leaseKey k l found⟩
  exact Registry.mem_values.mpr ⟨k, found⟩

theorem Coherent.sweep (c : e.Coherent) (now : ℕ) :
    Revoking e (e.sweep now).1.revokedLeases (e.sweep now).2 ∧ (e.sweep now).2.Coherent := by
  obtain ⟨ended, coherent⟩ := c.endEach (e.expiredSessions now)
  exact ⟨ended.trans (revokeEach_revoking _ _), coherent.revokeEach _⟩

theorem Coherent.sweep_leases (c : e.Coherent) (found : (e.sweep now).2.leases.get k = some l)
    (clear : l.revoked = false) : now < l.expiresAt := by
  by_contra past
  obtain ⟨-, coherent⟩ := c.endEach (e.expiredSessions now)
  have step := revokeEach_revoking (e.endEach (e.expiredSessions now)).2
    ((e.endEach (e.expiredSessions now)).2.expiredLeases now)
  obtain ⟨l₀, before, -, -, expires, -, kept⟩ := step.of_get found
  have late : l₀.expiresAt ≤ now := expires ▸ Nat.le_of_not_lt past
  have expired := coherent.mem_expiredLeases before (kept clear) late
  exact revokeEach_done _ expired ⟨l, found, clear⟩

theorem Coherent.sweep_sessions (c : e.Coherent) (found : (e.sweep now).2.sessions.get k = some s)
    (open_ : s.ended = false) : now < s.expiresAt ∧ now < s.idleDeadline := by
  rw [LeaseEngine.sweep, revokeEach_sessions, endEach_sessions, Option.map_eq_some_iff] at found
  obtain ⟨s₀, before, rfl⟩ := found
  rw [Bool.or_eq_false_iff, decide_eq_false_iff_not, c.mem_expiredSessions before] at open_
  obtain ⟨alive, unexpired⟩ := open_
  rw [not_and_or, not_or] at unexpired
  have deadlines := unexpired.resolve_left fun atop => atop alive
  exact ⟨Nat.lt_of_not_le deadlines.1, Nat.lt_of_not_le deadlines.2⟩

inductive Call (I : Type) where
  | openSession (now ttlSecs idleTimeoutSecs : ℕ)
  | issueLease (now : ℕ) (session : I) (ttlSecs maxTtlSecs : ℕ) (renewable : Bool)
  | renew (now : ℕ) (lease : I) (increment : ℕ)
  | revoke (lease : I)
  | endSession (session : I)
  | sweep (now : ℕ)

def Call.generates : Call I → Bool
  | .openSession .. => true
  | .issueLease .. => true
  | _ => false

/-- One call with the id it may generate: the engine afterwards and the lease
ids its result reports as revoked. A failing call changes nothing. -/
def perform (e : LeaseEngine I) (id : I) : Call I → LeaseEngine I × List I
  | .openSession now ttlSecs idleTimeoutSecs =>
    (e.openSession now ttlSecs idleTimeoutSecs id, [])
  | .issueLease now session ttlSecs maxTtlSecs renewable =>
    match e.issueLease now session ttlSecs maxTtlSecs renewable id with
    | .ok e' => (e', [])
    | .error _ => (e, [])
  | .renew now lease increment =>
    match e.renew now lease increment with
    | .ok (_, e') => (e', [])
    | .error _ => (e, [])
  | .revoke lease =>
    match e.revoke lease with
    | .ok e' => (e', [lease])
    | .error _ => (e, [])
  | .endSession session =>
    match e.endSession session with
    | .ok (revoked, e') => (e', revoked)
    | .error _ => (e, [])
  | .sweep now => ((e.sweep now).2, (e.sweep now).1.revokedLeases)

/-- The ids reported by a call are the leases it flagged. -/
structure Reports (e : LeaseEngine I) (reported : List I) (e' : LeaseEngine I) : Prop where
  distinct : reported.Nodup
  live : ∀ x ∈ reported, e.Unrevoked x
  revoked_iff : ∀ x, e'.Revoked x ↔ e.Revoked x ∨ x ∈ reported

omit [DecidableEq I] in
theorem Reports.mem_iff (h : Reports e r e') (x : I) : x ∈ r ↔ e.Unrevoked x ∧ e'.Revoked x := by
  rw [h.revoked_iff]
  constructor
  · exact fun mem => ⟨h.live x mem, .inr mem⟩
  · rintro ⟨live, before | mem⟩
    · exact absurd before live.not_revoked
    · exact mem

omit [DecidableEq I] in
theorem Reports.none (same : ∀ x, e'.Revoked x ↔ e.Revoked x) :
    Reports e [] e' := ⟨List.nodup_nil, by simp, by simpa using same⟩

theorem Revoking.reports (h : Revoking e r e') :
    Reports e r e' := ⟨h.distinct, h.live, h.revoked_iff⟩

theorem revoked_setLease (same : e.Revoked k ↔ l.revoked = true) (x : I) :
    (e.setLease k l).Revoked x ↔ e.Revoked x := by
  simp only [Revoked, setLease_leases, Registry.get_insert] at same ⊢
  by_cases here : x = k
  · subst here
    simpa using same.symm
  · rw [if_neg here]

theorem issueLease_reports {session : I} (unused : e.leases.get id = none)
    (done : e.issueLease now session ttlSecs maxTtlSecs renewable id = .ok e') :
    Reports e [] e' := by
  obtain ⟨s, -, -, rfl⟩ := issueLease_eq_ok done
  refine .none fun x => revoked_setLease ?_ x
  simp [Revoked, unused, leaseOf]

theorem renew_reports {left : ℕ} {lease : I} (done : e.renew now lease increment = .ok (left, e')) :
    Reports e [] e' := by
  obtain ⟨l, s, found, clear, -, rfl⟩ := renew_eq_ok done
  refine .none fun x => revoked_setLease ?_ x
  simp [Revoked, found, clear, Lease.extended]

theorem Coherent.perform (c : e.Coherent) {call : Call I} (fresh : call.generates → e.Fresh id) :
    Reports e (e.perform id call).2 (e.perform id call).1 ∧ (e.perform id call).1.Coherent := by
  have idle : Reports e [] e := .none fun x => Iff.rfl
  cases call with
  | openSession now ttlSecs idleTimeoutSecs =>
    exact ⟨.none fun x => Iff.rfl, c.openSession (fresh rfl) ..⟩
  | issueLease now session ttlSecs maxTtlSecs renewable =>
    unfold LeaseEngine.perform
    dsimp only
    split
    next e' done => exact ⟨issueLease_reports (fresh rfl).2 done, c.issueLease done⟩
    · exact ⟨idle, c⟩
  | renew now lease increment =>
    unfold LeaseEngine.perform
    dsimp only
    split
    next left e' done => exact ⟨renew_reports done, c.renew done⟩
    · exact ⟨idle, c⟩
  | revoke lease =>
    unfold LeaseEngine.perform
    dsimp only
    split
    next e' done => exact ⟨(c.revoke done).1.reports, (c.revoke done).2⟩
    · exact ⟨idle, c⟩
  | endSession session =>
    unfold LeaseEngine.perform
    dsimp only
    split
    next revoked e' done =>
      obtain ⟨s, found, ended⟩ := endSession_eq_ok done
      have step := e.endOne_revoking session s
      have coherent := c.endOne found
      rw [ended] at step coherent
      exact ⟨step.reports, coherent⟩
    · exact ⟨idle, c⟩
  | sweep now => exact ⟨(c.sweep now).1.reports, (c.sweep now).2⟩

/-- The engine after a sequence of calls, with every lease id reported as revoked so far. -/
inductive Run : LeaseEngine I → List I → Prop where
  | start : Run new []
  | call {e : LeaseEngine I} {log : List I} (id : I) (c : Call I) (run : Run e log)
    (fresh : c.generates → e.Fresh id) : Run (e.perform id c).1 (log ++ (e.perform id c).2)

theorem Run.coherent {log : List I} (run : Run e log) : e.Coherent := by
  induction run with
  | start => exact coherent_new
  | call id c _ fresh ih => exact (ih.perform fresh).2

theorem Run.log {log : List I} (run : Run e log) : log.Nodup ∧ ∀ x, x ∈ log ↔ e.Revoked x := by
  induction run with
  | start => simp [Revoked, new]
  | @call e log id c run fresh ih =>
    obtain ⟨distinct, flagged⟩ := ih
    have step := (run.coherent.perform fresh).1
    constructor
    · refine List.nodup_append.mpr ⟨distinct, step.distinct, ?_⟩
      rintro x before _ now rfl
      exact (step.live x now).not_revoked ((flagged x).mp before)
    · intro x
      rw [List.mem_append, step.revoked_iff, flagged]

/-- The engine invariant over every sequence of calls: deadlines under the
session's, unrevoked leases listed by an open session, revocation final and
reported once when it happens, and nothing expired after a sweep. -/
theorem run_invariant {e : LeaseEngine I} {log : List I} (run : Run e log) :
    (∀ x l, e.leases.get x = some l → l.expiresAt ≤ l.maxDeadline ∧
      ∃ s, e.sessions.get l.parentSession = some s ∧ l.maxDeadline ≤ s.expiresAt) ∧
    (∀ x l, e.leases.get x = some l → l.revoked = false →
      ∃ s, e.sessions.get l.parentSession = some s ∧ x ∈ s.children ∧ s.ended = false) ∧
    (∀ x, e.Revoked x →
      (∀ now increment, e.renew now x increment = .error .alreadyRevoked) ∧
      ∀ id (c : Call I), (c.generates → e.Fresh id) → (e.perform id c).1.Revoked x) ∧
    (log.Nodup ∧ ∀ x, x ∈ log ↔ e.Revoked x) ∧
    (∀ id (c : Call I), (c.generates → e.Fresh id) →
      ∀ x, x ∈ (e.perform id c).2 ↔ e.Unrevoked x ∧ (e.perform id c).1.Revoked x) ∧
    ∀ now,
      (∀ x l, (e.sweep now).2.leases.get x = some l → l.revoked = false → now < l.expiresAt) ∧
      ∀ x s, (e.sweep now).2.sessions.get x = some s → s.ended = false →
        now < s.expiresAt ∧ now < s.idleDeadline := by
  have c := run.coherent
  refine ⟨?_, ?_, ?_, run.log, ?_, ?_⟩
  · intro x l found
    obtain ⟨below, s, at_s, under, -⟩ := c.housed x l found
    exact ⟨below, s, at_s, under⟩
  · intro x l found clear
    obtain ⟨-, s, at_s, -, child⟩ := c.housed x l found
    exact ⟨s, at_s, child clear⟩
  · intro x flagged
    refine ⟨fun now increment => ?_, fun id call fresh => ?_⟩
    · obtain ⟨l, found, revoked⟩ := flagged
      simp [renew, found, revoked]
    · exact ((c.perform fresh).1.revoked_iff x).mpr (.inl flagged)
  · intro id call fresh
    exact (c.perform fresh).1.mem_iff
  · intro now
    exact ⟨fun x l => c.sweep_leases, fun x s => c.sweep_sessions⟩

theorem run_invariant_expired : ∃ e : LeaseEngine ℕ, Run e [1] ∧
    ∀ now increment, e.renew now 1 increment = .error .alreadyRevoked := by
  have opened := Run.start.call 0 (.openSession 0 100 50) fun _ => ⟨rfl, rfl⟩
  have issued := opened.call 1 (.issueLease 0 0 10 20 true) fun _ => ⟨rfl, rfl⟩
  have swept := issued.call 2 (.sweep 10) nofun
  exact ⟨_, swept, ((run_invariant swept).2.2.1 1 ⟨_, rfl, rfl⟩).1⟩

end TerrapiVault.Broker.LeaseEngine
