import Mathlib.Logic.Relation
import Mathlib.Data.Nat.Notation

/-! Back-channel logout of the console. Between the id token it is issued and the session it
creates, a callback is inside `complete`. -/
namespace TerrapiVault.Console

open Relation (ReflTransGen)

/-- What a login keeps of its id token, and when that was issued. -/
structure IdToken where
  subject : String
  sid : Option String
  issued : ℕ

structure LogoutToken where
  sid : Option String
  sub : Option String
  issued : ℕ

/-- The logins that a logout token is to end. -/
def LogoutToken.Ends (l : LogoutToken) (t : IdToken) : Prop :=
  match l.sid with
  | some sid => t.sid = some sid
  | none => l.sub = some t.subject ∧ t.issued < l.issued

def logoutMatching (sid sub : Option String) (sessions : List IdToken) : List IdToken :=
  match sid, sub with
  | some sid, _ => sessions.filter fun t => t.sid ≠ some sid
  | none, some sub => sessions.filter fun t => t.subject ≠ sub
  | none, none => sessions

/-- `logins` are the callbacks inside `complete`; `sent` are the logout tokens of the provider,
and `accepted` those that the console has acted on. -/
structure State where
  now : ℕ := 0
  logins : List IdToken := []
  sessions : List IdToken := []
  sent : List LogoutToken := []
  accepted : List LogoutToken := []

/-- The provider issues no id token for a session it has sent a logout for. A session is
removed by its own logout or by its expiry. A token that is sent again may be accepted again,
as `SeenJtis` is bounded. -/
inductive Step : State → State → Prop
  | issue (s : State) (t : IdToken) (stamped : t.issued = s.now)
    (current : ∀ l ∈ s.sent, l.sid.isSome → l.sid ≠ t.sid) :
    Step s { s with now := s.now + 1, logins := s.logins ++ [t] }
  | fail (s : State) (front back : List IdToken) (t : IdToken)
    (here : s.logins = front ++ t :: back) : Step s { s with logins := front ++ back }
  | create (s : State) (front back : List IdToken) (t : IdToken)
    (here : s.logins = front ++ t :: back) :
    Step s { s with logins := front ++ back, sessions := s.sessions ++ [t] }
  | remove (s : State) (front back : List IdToken) (t : IdToken)
    (here : s.sessions = front ++ t :: back) : Step s { s with sessions := front ++ back }
  | send (s : State) (l : LogoutToken) (stamped : l.issued = s.now) :
    Step s { s with now := s.now + 1, sent := s.sent ++ [l] }
  | accept (s : State) (l : LogoutToken) (signed : l ∈ s.sent) (named : l.sid.isSome ∨ l.sub.isSome) :
    Step s { s with
      sessions := logoutMatching l.sid l.sub s.sessions, accepted := s.accepted ++ [l] }

/-- A logout is accepted only while no login that it is to end is inside `complete`. -/
def Settled (s s' : State) : Prop :=
  ∀ l ∈ s'.accepted, l ∈ s.accepted ∨ ∀ t ∈ s.logins, ¬l.Ends t

variable {s s' : State} {l : LogoutToken} {t : IdToken} {sessions : List IdToken}

theorem mem_logoutMatching (mem : t ∈ logoutMatching l.sid l.sub sessions) :
    t ∈ sessions ∧ ¬l.Ends t := by
  obtain ⟨sid, sub, issued⟩ := l
  cases sid with
  | some sid => simpa [logoutMatching, LogoutToken.Ends] using mem
  | none =>
    cases sub with
    | none => exact ⟨mem, by simp [LogoutToken.Ends]⟩
    | some sub =>
      simp only [logoutMatching, List.mem_filter, decide_eq_true_eq] at mem
      exact ⟨mem.1, fun ends => mem.2 (Option.some.inj ends.1).symm⟩

/-- No login that an accepted token is to end has a session or can still get one. -/
structure Final (s : State) : Prop where
  ended : ∀ l ∈ s.accepted, (∀ t ∈ s.sessions, ¬l.Ends t) ∧ ∀ t ∈ s.logins, ¬l.Ends t
  sent : ∀ l ∈ s.accepted, l ∈ s.sent
  past : ∀ l ∈ s.sent, l.issued ≤ s.now

theorem Final.step (final : Final s) (stepped : Step s s') (settled : Settled s s') : Final s' := by
  cases stepped with
  | issue t stamped current =>
    refine ⟨fun l mem => ⟨(final.ended l mem).1, ?_⟩, final.sent,
      fun l mem => Nat.le_succ_of_le (final.past l mem)⟩
    refine List.forall_mem_append.mpr ⟨(final.ended l mem).2, List.forall_mem_singleton.mpr ?_⟩
    have sent := final.sent l mem
    have past := final.past l sent
    unfold LogoutToken.Ends
    split
    · rename_i sid named
      exact fun same => current l sent (by simp [named]) (named.trans same.symm)
    · exact fun ends => absurd ends.2 (by omega)
  | fail front back t here =>
    refine ⟨fun l mem => ⟨(final.ended l mem).1, fun x inside => (final.ended l mem).2 x ?_⟩,
      final.sent, final.past⟩
    grind
  | create front back t here =>
    refine ⟨fun l mem => ?_, final.sent, final.past⟩
    obtain ⟨sessions, logins⟩ := final.ended l mem
    rw [here] at logins
    refine ⟨List.forall_mem_append.mpr ⟨sessions, List.forall_mem_singleton.mpr ?_⟩, ?_⟩
    · exact logins t (by simp)
    · exact fun x inside => logins x (by grind)
  | remove front back t here =>
    refine ⟨fun l mem => ⟨fun x inside => (final.ended l mem).1 x ?_, (final.ended l mem).2⟩,
      final.sent, final.past⟩
    grind
  | send l stamped =>
    refine ⟨final.ended, fun l mem => List.mem_append_left _ (final.sent l mem), ?_⟩
    refine List.forall_mem_append.mpr ⟨fun l mem => Nat.le_succ_of_le (final.past l mem), ?_⟩
    exact List.forall_mem_singleton.mpr (stamped ▸ Nat.le_succ _)
  | accept l signed named =>
    refine ⟨fun l' mem => ?_, ?_, final.past⟩
    · have kept : ∀ t ∈ logoutMatching l.sid l.sub s.sessions, ¬l'.Ends t := by
        intro t inside
        rcases List.mem_append.mp mem with old | new
        · exact (final.ended l' old).1 t (mem_logoutMatching inside).1
        · exact List.mem_singleton.mp new ▸ (mem_logoutMatching inside).2
      refine ⟨kept, ?_⟩
      rcases settled l' mem with old | quiet
      · exact (final.ended l' old).2
      · exact quiet
    · exact List.forall_mem_append.mpr ⟨final.sent, List.forall_mem_singleton.mpr signed⟩

/-- While no logout is accepted during a login that it is to end, an accepted logout is final. -/
theorem logout_final (run : ReflTransGen (fun s s' => Step s s' ∧ Settled s s') {} s) :
    ∀ l ∈ s.accepted, ∀ t ∈ s.sessions, ¬l.Ends t := by
  have final : Final s := by
    induction run with
    | refl => exact ⟨by simp, by simp, by simp⟩
    | tail _ stepped ih => exact ih.step stepped.1 stepped.2
  exact fun l mem => (final.ended l mem).1

namespace Sample

def login : IdToken := ⟨"u", some "x", 0⟩

def logout : LogoutToken := ⟨some "x", none, 1⟩

/-- The session is created after its logout. -/
theorem logout_overtaken : ∃ s : State, ReflTransGen Step {} s ∧ s.accepted = [logout] ∧
    s.sessions = [login] ∧ logout.Ends login :=
  ⟨_, .tail (.tail (.tail (.single (.issue _ login rfl (by simp))) (.send _ logout rfl))
    (.accept _ logout (by simp) (.inl rfl))) (.create _ [] [] login rfl), rfl, rfl, rfl⟩

theorem logout_final_created : ∃ s : State, s.accepted = [logout] ∧
    ∀ l ∈ s.accepted, ∀ t ∈ s.sessions, ¬l.Ends t :=
  ⟨_, rfl, logout_final (.tail (.tail (.tail (.single
    ⟨.issue {} login rfl (by simp), by simp [Settled]⟩)
    ⟨.create _ [] [] login rfl, by simp [Settled]⟩) ⟨.send _ logout rfl, by simp [Settled]⟩)
    ⟨.accept _ logout (by simp) (.inl rfl), by simp [Settled]⟩)⟩

end Sample

end TerrapiVault.Console
