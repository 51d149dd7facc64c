import Mathlib.Algebra.GroupWithZero.Nat
import TerrapiVault.Lib.Registry

/-! The lease and session engine of `vesta-transport`. Every lease is a child
of an operator session; ending the session revokes its children, and a sweep
ends sessions past a deadline and revokes leases past their own. Time is an
argument of each call, in whole seconds of a 64-bit counter, and the generated
id is an argument of the two calls that insert. -/

namespace TerrapiVault.Broker

def saturatingAdd (a b : ℕ) : ℕ := min (a + b) (2 ^ 64 - 1)

inductive LeaseError where
  | noSuchSession
  | noSuchLease
  | sessionEnded
  | notRenewable
  | alreadyRevoked
deriving DecidableEq, Repr

variable {I : Type}

structure Session (I : Type) where
  id : I
  expiresAt : ℕ
  idleDeadline : ℕ
  idleTimeoutSecs : ℕ
  children : List I
  ended : Bool

structure Lease (I : Type) where
  id : I
  parentSession : I
  expiresAt : ℕ
  maxDeadline : ℕ
  renewable : Bool
  revoked : Bool

structure Swept (I : Type) where
  endedSessions : List I
  revokedLeases : List I

structure LeaseEngine (I : Type) where
  sessions : Registry I (Session I)
  leases : Registry I (Lease I)

def Session.live (s : Session I) (now : ℕ) : Bool :=
  !s.ended && now < s.expiresAt && now < s.idleDeadline

def Session.touch (s : Session I) (now : ℕ) : Session I :=
  { s with idleDeadline := min (saturatingAdd now s.idleTimeoutSecs) s.expiresAt }

/-- The lease after a renewal: never past its own ceiling or the session's expiry. -/
def Lease.extended (l : Lease I) (s : Session I) (now increment : ℕ) : Lease I :=
  { l with expiresAt := min (saturatingAdd now increment) (min l.maxDeadline s.expiresAt) }

namespace LeaseEngine

def new : LeaseEngine I := ⟨.empty, .empty⟩

variable [DecidableEq I]

def setSession (e : LeaseEngine I) (session : I) (s : Session I) : LeaseEngine I :=
  { e with sessions := e.sessions.insert session s }

def setLease (e : LeaseEngine I) (lease : I) (l : Lease I) : LeaseEngine I :=
  { e with leases := e.leases.insert lease l }

def openSession (e : LeaseEngine I) (now ttlSecs idleTimeoutSecs : ℕ) (id : I) :
    LeaseEngine I :=
  e.setSession id
    { id
      expiresAt := saturatingAdd now ttlSecs
      idleDeadline := saturatingAdd now idleTimeoutSecs
      idleTimeoutSecs
      children := []
      ended := false }

/-- The lease inserted for a live session; its deadlines never pass the session's. -/
def leaseOf (s : Session I) (now : ℕ) (session : I) (ttlSecs maxTtlSecs : ℕ)
    (renewable : Bool) (id : I) : Lease I :=
  let maxDeadline := min (saturatingAdd now maxTtlSecs) s.expiresAt
  { id
    parentSession := session
    expiresAt := min (saturatingAdd now ttlSecs) maxDeadline
    maxDeadline
    renewable
    revoked := false }

def issueLease (e : LeaseEngine I) (now : ℕ) (session : I) (ttlSecs maxTtlSecs : ℕ)
    (renewable : Bool) (id : I) : Except LeaseError (LeaseEngine I) :=
  match e.sessions.get session with
  | none => .error .noSuchSession
  | some s =>
    if s.live now then
      let touched := s.touch now
      let lease := leaseOf touched now session ttlSecs maxTtlSecs renewable id
      .ok ((e.setLease id lease).setSession session
        { touched with children := touched.children ++ [id] })
    else .error .sessionEnded

def renew (e : LeaseEngine I) (now : ℕ) (lease : I) (increment : ℕ) :
    Except LeaseError (ℕ × LeaseEngine I) :=
  match e.leases.get lease with
  | none => .error .noSuchLease
  | some l =>
    if l.revoked then .error .alreadyRevoked
    else if !l.renewable then .error .notRenewable
    else if l.expiresAt ≤ now then .error .alreadyRevoked
    else match (e.sessions.get l.parentSession).filter (·.live now) with
      | none => .error .sessionEnded
      | some s =>
        let extended := l.extended s now increment
        .ok (extended.expiresAt - now,
          (e.setLease lease extended).setSession l.parentSession (s.touch now))

def revoke (e : LeaseEngine I) (lease : I) : Except LeaseError (LeaseEngine I) :=
  match e.leases.get lease with
  | none => .error .noSuchLease
  | some l =>
    if l.revoked then .error .alreadyRevoked
    else .ok (e.setLease lease { l with revoked := true })

/-- Mark each unrevoked lease of the list revoked; the ones flipped are returned. -/
def revokeEach (e : LeaseEngine I) : List I → List I × LeaseEngine I
  | [] => ([], e)
  | id :: ids =>
    match e.leases.get id with
    | none => e.revokeEach ids
    | some l =>
      if l.revoked then e.revokeEach ids
      else
        let rest := (e.setLease id { l with revoked := true }).revokeEach ids
        (id :: rest.1, rest.2)

/-- End one session found under its id and cascade over its children. -/
def endOne (e : LeaseEngine I) (session : I) (s : Session I) : List I × LeaseEngine I :=
  (e.setSession session { s with ended := true }).revokeEach s.children

def endSession (e : LeaseEngine I) (session : I) :
    Except LeaseError (List I × LeaseEngine I) :=
  match e.sessions.get session with
  | none => .error .noSuchSession
  | some s => .ok (e.endOne session s)

/-- The first loop of a sweep: each listed session is ended with its children. -/
def endEach (e : LeaseEngine I) : List I → Swept I × LeaseEngine I
  | [] => (⟨[], []⟩, e)
  | id :: ids =>
    match e.sessions.get id with
    | none => e.endEach ids
    | some s =>
      let rest := (e.endOne id s).2.endEach ids
      (⟨id :: rest.1.endedSessions, (e.endOne id s).1 ++ rest.1.revokedLeases⟩, rest.2)

def expiredSessions (e : LeaseEngine I) (now : ℕ) : List I :=
  (e.sessions.values.filter fun s =>
    !s.ended && (s.expiresAt ≤ now || s.idleDeadline ≤ now)).map (·.id)

def expiredLeases (e : LeaseEngine I) (now : ℕ) : List I :=
  (e.leases.values.filter fun l => !l.revoked && l.expiresAt ≤ now).map (·.id)

def sweep (e : LeaseEngine I) (now : ℕ) : Swept I × LeaseEngine I :=
  let ended := e.endEach (e.expiredSessions now)
  let expired := ended.2.revokeEach (ended.2.expiredLeases now)
  (⟨ended.1.endedSessions, ended.1.revokedLeases ++ expired.1⟩, expired.2)

@[simp] theorem setSession_leases (e : LeaseEngine I) (k : I) (s : Session I) :
    (e.setSession k s).leases = e.leases := rfl

@[simp] theorem setSession_sessions (e : LeaseEngine I) (k : I) (s : Session I) :
    (e.setSession k s).sessions = e.sessions.insert k s := rfl

@[simp] theorem setLease_leases (e : LeaseEngine I) (k : I) (l : Lease I) :
    (e.setLease k l).leases = e.leases.insert k l := rfl

def Unrevoked (e : LeaseEngine I) (x : I) : Prop :=
  ∃ l, e.leases.get x = some l ∧ l.revoked = false

def Revoked (e : LeaseEngine I) (x : I) : Prop :=
  ∃ l, e.leases.get x = some l ∧ l.revoked = true

/-- What a call that only revokes does to the leases: the reported ones were
unrevoked and are now flagged, the others are as they were. -/
structure Revoking (e : LeaseEngine I) (reported : List I) (e' : LeaseEngine I) : Prop where
  distinct : reported.Nodup
  live : ∀ x ∈ reported, e.Unrevoked x
  leases : ∀ x, e'.leases.get x =
    (e.leases.get x).map fun l => { l with revoked := l.revoked || decide (x ∈ reported) }

omit [DecidableEq I] in
theorem Unrevoked.not_revoked {e : LeaseEngine I} {x : I} (live : e.Unrevoked x) :
    ¬ e.Revoked x := by
  rintro ⟨l, found, flagged⟩
  obtain ⟨l', found', clear⟩ := live
  rw [found, Option.some.injEq] at found'
  rw [← found', flagged] at clear
  cases clear

namespace Revoking

variable {e e₁ e₂ : LeaseEngine I} {r r₁ r₂ : List I}

theorem refl (e : LeaseEngine I) : Revoking e [] e where
  distinct := List.nodup_nil
  live := by simp
  leases x := by cases e.leases.get x <;> simp

theorem unrevoked_iff (h : Revoking e r e₁) (x : I) :
    e₁.Unrevoked x ↔ e.Unrevoked x ∧ x ∉ r := by
  simp only [Unrevoked, h.leases x, Option.map_eq_some_iff]
  constructor
  · rintro ⟨_, ⟨l, found, rfl⟩, clear⟩
    rw [Bool.or_eq_false_iff, decide_eq_false_iff_not] at clear
    exact ⟨⟨l, found, clear.1⟩, clear.2⟩
  · rintro ⟨⟨l, found, clear⟩, other⟩
    exact ⟨_, ⟨l, found, rfl⟩, by simp [clear, other]⟩

theorem revoked_iff (h : Revoking e r e₁) (x : I) :
    e₁.Revoked x ↔ e.Revoked x ∨ x ∈ r := by
  simp only [Revoked, h.leases x, Option.map_eq_some_iff]
  constructor
  · rintro ⟨_, ⟨l, found, rfl⟩, flagged⟩
    rw [Bool.or_eq_true, decide_eq_true_iff] at flagged
    exact flagged.imp (fun flag => ⟨l, found, flag⟩) id
  · rintro (⟨l, found, flagged⟩ | mem)
    · exact ⟨_, ⟨l, found, rfl⟩, by simp [flagged]⟩
    · obtain ⟨l, found, -⟩ := h.live x mem
      exact ⟨_, ⟨l, found, rfl⟩, by simp [mem]⟩

theorem trans (first : Revoking e r₁ e₁) (second : Revoking e₁ r₂ e₂) :
    Revoking e (r₁ ++ r₂) e₂ where
  distinct := by
    refine List.nodup_append.mpr ⟨first.distinct, second.distinct, ?_⟩
    rintro x left _ right rfl
    exact ((first.unrevoked_iff x).mp (second.live x right)).2 left
  live x mem := by
    rcases List.mem_append.mp mem with left | right
    · exact first.live x left
    · exact ((first.unrevoked_iff x).mp (second.live x right)).1
  leases x := by
    rw [second.leases, first.leases, Option.map_map]
    congr 1
    funext l
    simp [Bool.or_assoc]

theorem single {x : I} {l : Lease I} (found : e.leases.get x = some l)
    (clear : l.revoked = false) : Revoking e [x] (e.setLease x { l with revoked := true }) where
  distinct := List.nodup_singleton x
  live y mem := by
    rw [List.mem_singleton.mp mem]
    exact ⟨l, found, clear⟩
  leases y := by
    rw [setLease_leases, Registry.get_insert]
    by_cases same : y = x
    · subst same
      simp [found]
    · rw [if_neg same]
      cases e.leases.get y <;> simp [same]

end Revoking

theorem revoke_eq_ok {e e' : LeaseEngine I} {x : I} (done : e.revoke x = .ok e') :
    ∃ l, e.leases.get x = some l ∧ l.revoked = false ∧
      e' = e.setLease x { l with revoked := true } := by
  unfold revoke at done
  split at done
  · cases done
  next l found =>
    split at done
    · cases done
    next clear => exact ⟨l, found, by simpa using clear, (Except.ok.inj done).symm⟩

theorem revokeEach_revoking (e : LeaseEngine I) (ids : List I) :
    Revoking e (e.revokeEach ids).1 (e.revokeEach ids).2 := by
  induction ids generalizing e with
  | nil => exact .refl e
  | cons id ids ih =>
    unfold revokeEach
    split
    · exact ih e
    next l found =>
      split
      · exact ih e
      next clear => exact (Revoking.single found (by simpa using clear)).trans (ih _)

@[simp] theorem revokeEach_sessions (e : LeaseEngine I) (ids : List I) :
    (e.revokeEach ids).2.sessions = e.sessions := by
  induction ids generalizing e with
  | nil => rfl
  | cons id ids ih =>
    unfold revokeEach
    split
    · exact ih e
    · split
      · exact ih e
      · exact ih _

theorem revokeEach_done (e : LeaseEngine I) {ids : List I} {x : I} (mem : x ∈ ids) :
    ¬ (e.revokeEach ids).2.Unrevoked x := by
  intro live
  obtain ⟨before, unreported⟩ := ((e.revokeEach_revoking ids).unrevoked_iff x).mp live
  clear live
  induction ids generalizing e with
  | nil => cases mem
  | cons id ids ih =>
    obtain ⟨l, found, clear⟩ := before
    by_cases same : x = id
    · subst same
      simp [revokeEach, found, clear] at unreported
    · have later := (List.mem_cons.mp mem).resolve_left same
      unfold revokeEach at unreported
      split at unreported
      · exact ih e later ⟨l, found, clear⟩ unreported
      next l' _ =>
        split at unreported
        · exact ih e later ⟨l, found, clear⟩ unreported
        · refine ih _ later ⟨l, ?_, clear⟩ fun mem => unreported (List.mem_cons_of_mem _ mem)
          rw [setLease_leases, Registry.get_insert_of_ne _ _ same, found]

theorem endOne_revoking (e : LeaseEngine I) (k : I) (s : Session I) :
    Revoking e (e.endOne k s).1 (e.endOne k s).2 :=
  have h := (e.setSession k { s with ended := true }).revokeEach_revoking s.children
  { h with }

@[simp] theorem endOne_sessions (e : LeaseEngine I) (k : I) (s : Session I) :
    (e.endOne k s).2.sessions = e.sessions.insert k { s with ended := true } := by
  rw [endOne, revokeEach_sessions, setSession_sessions]

end LeaseEngine

end TerrapiVault.Broker
