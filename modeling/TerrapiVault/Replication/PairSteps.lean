import TerrapiVault.Replication.Agreement
import TerrapiVault.Replication.Coordinator

/-! Proof rules for single calls on a pair that nobody else uses. Where a command is
cut short or fails, the pair is in a protocol state reached by protocol moves, now
and after the unanswered call has taken effect. -/
namespace TerrapiVault.Replication.Pair

open CrashLogic Protocol

variable {D : Type} [DecidableEq D] {X : Engine D} {identity : Identity ℕ}

/-- The pair is in state `a`, and the unanswered call makes protocol moves. -/
structure Holds (a : Position X identity) (pair : Pair D) : Prop where
  agree : Agree a pair.primary pair.secondary
  landing : ∀ call ∈ pair.inflight, ∃ b, Steps .resolve a b ∧
    Agree b pair.primary (call.1.after X pair.secondary call.2)

/-- A state reached from `a`. -/
def Since (intent : Intent) (a : Position X identity) (pair : Pair D) : Prop :=
  ∃ b, Steps intent a b ∧ Holds b pair

/-- A state reached from `a`, with the primary known. -/
def Waiting (intent : Intent) (a : Position X identity) (p : Node D)
    (pair : Pair D) : Prop :=
  pair.primary = p ∧ Since intent a pair

/-- Both nodes known and no call unanswered. -/
structure Here (p s : Node D) (pair : Pair D) : Prop where
  primary_eq : pair.primary = p
  secondary_eq : pair.secondary = s
  answered : pair.inflight = none

def Stoppable (allow : Choice D → Prop) : Prop :=
  ∃ choice, allow choice ∧ (choice.stopBefore = true ∨ choice.stopAfter = true)

def Lossy (allow : Choice D → Prop) : Prop := ∃ choice, allow choice ∧ choice.answered = false

def Crashed (allow : Choice D → Prop) (intent : Intent)
    (a : Position X identity) (pair : Pair D) : Prop :=
  Stoppable allow ∧ Since intent a pair

/-- A failure is a lost reply or one of the refusals. -/
def Failed (allow : Choice D → Prop) (intent : Intent) (a : Position X identity)
    (refusal : Fault → Pair D → Prop) (e : Fault) (pair : Pair D) : Prop :=
  (e = .unanswered ∧ Lossy allow ∨ refusal e pair) ∧ Since intent a pair

theorem serve_secondary (pair : Pair D) (c : Call D) (random : Bytes32) :
    (pair.serve X c random).1.secondary = c.after X pair.secondary random := by
  unfold serve Call.after
  cases c.run X pair.secondary random <;> rfl

theorem serve_primary (pair : Pair D) (c : Call D) (random : Bytes32) :
    (pair.serve X c random).1.primary = pair.primary := by
  unfold serve
  cases c.run X pair.secondary random <;> rfl

theorem serve_inflight (pair : Pair D) (c : Call D) (random : Bytes32) :
    (pair.serve X c random).1.inflight = none := by
  unfold serve
  cases c.run X pair.secondary random <;> rfl

variable {a : Position X identity} {pair : Pair D} {choice : Choice D}

theorem Holds.of_answered (agree : Agree a pair.primary pair.secondary)
    (answered : pair.inflight = none) : Holds a pair :=
  ⟨agree, by simp [answered]⟩

theorem Here.holds {p s : Node D} (here : Here p s pair) (agree : Agree a p s) : Holds a pair := by
  refine .of_answered ?_ here.answered
  rw [here.primary_eq, here.secondary_eq]
  exact agree

theorem settle_answered (alone : choice.others = []) (answered : pair.inflight = none) :
    pair.settle X choice = pair := by
  simp [settle, alone, answered]

/-- The unanswered call lands or stays away; either way the pair holds a state. -/
theorem Holds.settle (holds : Holds a pair) (alone : choice.others = []) :
    (pair.settle X choice).primary = pair.primary ∧
      ∃ b, Steps .resolve a b ∧ Holds b (pair.settle X choice) := by
  simp only [Pair.settle, alone, List.foldl_nil]
  cases waiting : pair.inflight with
  | none => exact ⟨rfl, a, .refl, holds⟩
  | some call =>
    by_cases land : choice.land = true
    · simp only [land, if_true]
      obtain ⟨b, steps, agree⟩ := holds.landing call waiting
      refine ⟨serve_primary .., b, steps, .of_answered ?_ (serve_inflight ..)⟩
      rw [serve_primary, serve_secondary]
      exact agree
    · simp only [land]
      exact ⟨rfl, a, .refl, holds⟩

theorem Since.settle {intent : Intent} (since : Since intent a pair) (alone : choice.others = []) :
    (pair.settle X choice).primary = pair.primary ∧ Since intent a (pair.settle X choice) := by
  obtain ⟨b, steps, holds⟩ := since
  obtain ⟨primary, c, more, landed⟩ := holds.settle alone
  exact ⟨primary, c, steps.trans more.unsolicited, landed⟩

section Rules

variable {allow : Choice D → Prop} {intent : Intent} {a b : Position X identity}
  {refusal : Fault → Pair D → Prop} {fail : Fault → Pair D → Prop} {p s : Node D} {c : Call D}
  {r : c.Reply} (alone : ∀ choice, allow choice → choice.others = [])

include alone

section

variable (steps : Steps intent a b)
include steps

variable (agree : Agree b p s)
include agree

theorem primary_try (post : c.Reply → Node D → Prop)
    (ok : ∀ random r p', c.run X p random = .ok (r, p') →
      post r p' ∧ ∃ b', Steps intent b b' ∧ Agree b' p' s)
    (error : ∀ random e, c.run X p random = .error e → ∀ pair, Here p s pair → fail e pair) :
    Triple allow (Crashed allow intent a) (Here p s) (onPrimary X c)
      (fun r pair => ∃ p', post r p' ∧ Here p' s pair) fail := by
  refine Triple.step fun choice pair allowed here => ?_
  have since : Since intent a pair := ⟨b, steps, here.holds agree⟩
  dsimp only
  rw [settle_answered (alone choice allowed) here.answered, here.primary_eq]
  by_cases before : choice.stopBefore = true
  · simp only [before, if_true]
    exact ⟨⟨choice, allowed, .inl before⟩, since⟩
  · simp only [before]
    cases result : c.run X p choice.random with
    | error e =>
      exact told_reply (fun after => ⟨⟨choice, allowed, .inr after⟩, since⟩)
        (error _ e result pair here)
    | ok value =>
      obtain ⟨r, p'⟩ := value
      obtain ⟨posted, b', move, agree'⟩ := ok _ r p' result
      have moved : Here p' s { pair with primary := p' } :=
        ⟨rfl, here.secondary_eq, here.answered⟩
      exact told_reply (fun after =>
        ⟨⟨choice, allowed, .inr after⟩, b', steps.trans move, moved.holds agree'⟩)
        ⟨p', posted, moved⟩

theorem secondary_try (post : c.Reply → Node D → Prop)
    (ok : ∀ random r s', c.run X s random = .ok (r, s') →
      post r s' ∧ ∃ b', Steps .resolve b b' ∧ Agree b' p s')
    (error : ∀ random e, c.run X s random = .error e → ∀ pair, Here p s pair → refusal e pair) :
    Triple allow (Crashed allow intent a) (Here p s) (onSecondary X c)
      (fun r pair => ∃ s', post r s' ∧ Here p s' pair) (Failed allow intent a refusal) := by
  refine Triple.step fun choice pair allowed here => ?_
  have holds := here.holds agree
  have since : Since intent a pair := ⟨b, steps, holds⟩
  dsimp only
  rw [settle_answered (alone choice allowed) here.answered]
  by_cases before : choice.stopBefore = true
  · simp only [before, if_true]
    exact ⟨⟨choice, allowed, .inl before⟩, since⟩
  · by_cases answered : choice.answered = true
    · simp only [before, answered, if_true, serve, here.secondary_eq]
      cases result : c.run X s choice.random with
      | error e =>
        have left : Here p s { pair with secondary := s, inflight := none } :=
          ⟨here.primary_eq, rfl, rfl⟩
        exact told_reply (fun after => ⟨⟨choice, allowed, .inr after⟩, b, steps, left.holds agree⟩)
          ⟨.inr (error _ e result _ left), b, steps, left.holds agree⟩
      | ok value =>
        obtain ⟨r, s'⟩ := value
        obtain ⟨posted, b', move, agree'⟩ := ok _ r s' result
        have moved : Here p s' { pair with secondary := s', inflight := none,
                                           served := ⟨c, r⟩ :: pair.served } :=
          ⟨here.primary_eq, rfl, rfl⟩
        exact told_reply (fun after =>
          ⟨⟨choice, allowed, .inr after⟩, b', steps.trans move.unsolicited, moved.holds agree'⟩)
          ⟨s', posted, moved⟩
    · -- the call is in flight: it lands as above or leaves the secondary as it is
      have waiting : Since intent a { pair with inflight := some (c, choice.random) } := by
        refine ⟨b, steps, holds.agree, ?_⟩
        rintro call ⟨⟩
        simp only [Call.after, here.secondary_eq, here.primary_eq]
        cases result : c.run X s choice.random with
        | error e => exact ⟨b, .refl, agree⟩
        | ok value => exact (ok _ value.1 value.2 result).2
      simp only [before, answered]
      exact told_reply (fun after => ⟨⟨choice, allowed, .inr after⟩, waiting⟩)
        ⟨.inl ⟨rfl, choice, allowed, by simpa using answered⟩, waiting⟩

theorem primary_step {b' : Position X identity}
    (run : ∀ random, ∃ p', c.run X p random = .ok (r, p') ∧ Agree b' p' s)
    (move : Steps intent b b') :
    Triple allow (Crashed allow intent a) (Here p s) (onPrimary X c)
      (fun reply pair => reply = r ∧ ∃ p', Agree b' p' s ∧ Here p' s pair) fail := by
  refine (primary_try alone steps agree (fun reply p' => reply = r ∧ Agree b' p' s)
    ?_ ?_).strengthen ?_
  · intro random reply p' ok
    obtain ⟨p'', ran, agree'⟩ := run random
    obtain ⟨rfl, rfl⟩ := Prod.mk.inj (ok_unique ok ran)
    exact ⟨⟨rfl, agree'⟩, b', move, agree'⟩
  · intro random e failed
    obtain ⟨p'', ran, _⟩ := run random
    rw [ran] at failed
    simp at failed
  · intro reply pair ⟨p', ⟨same, agree'⟩, here⟩
    exact ⟨same, p', agree', here⟩

theorem secondary_step {b' : Position X identity}
    (run : ∀ random, ∃ s', c.run X s random = .ok (r, s') ∧ Agree b' p s')
    (move : Steps .resolve b b') :
    Triple allow (Crashed allow intent a) (Here p s) (onSecondary X c)
      (fun reply pair => reply = r ∧ ∃ s', Agree b' p s' ∧ Here p s' pair)
      (Failed allow intent a refusal) := by
  refine (secondary_try alone steps agree (fun reply s' => reply = r ∧ Agree b' p s')
    ?_ ?_).strengthen ?_
  · intro random reply s' ok
    obtain ⟨s'', ran, agree'⟩ := run random
    obtain ⟨rfl, rfl⟩ := Prod.mk.inj (ok_unique ok ran)
    exact ⟨⟨rfl, agree'⟩, b', move, agree'⟩
  · intro random e failed
    obtain ⟨s'', ran, _⟩ := run random
    rw [ran] at failed
    simp at failed
  · intro reply pair ⟨s', ⟨same, agree'⟩, here⟩
    exact ⟨same, s', agree', here⟩

theorem primary_error {fault : Fault} (run : ∀ random, c.run X p random = .error fault)
    (refused : ∀ pair, Here p s pair → refusal fault pair) :
    Triple allow (Crashed allow intent a) (Here p s) (onPrimary X c) (fun _ _ => False)
      (Failed allow intent a refusal) := by
  refine (primary_try alone steps agree (fun _ _ => False) ?_ ?_).strengthen ?_
  · intro random r p' ok
    rw [run random] at ok
    simp at ok
  · intro random e failed pair here
    obtain rfl := Except.error.inj ((run random).symm.trans failed)
    exact ⟨.inr (refused pair here), b, steps, here.holds agree⟩
  · intro r pair ⟨_, never, _⟩
    exact never

theorem primary_read (run : ∀ random, c.run X p random = .ok (r, p)) :
    Triple allow (Crashed allow intent a) (Here p s) (onPrimary X c)
      (fun reply pair => reply = r ∧ Here p s pair) fail := by
  refine (primary_try alone steps agree (fun reply p' => reply = r ∧ p' = p)
    ?_ ?_).strengthen ?_
  · intro random reply p' ok
    rw [run random] at ok
    obtain ⟨rfl, rfl⟩ := Prod.mk.inj (Except.ok.inj ok)
    exact ⟨⟨rfl, rfl⟩, b, .refl, agree⟩
  · intro random e failed
    rw [run random] at failed
    simp at failed
  · intro reply pair ⟨p', ⟨same, known⟩, here⟩
    exact ⟨same, known ▸ here⟩

theorem secondary_read (run : ∀ random, c.run X s random = .ok (r, s)) :
    Triple allow (Crashed allow intent a) (Here p s) (onSecondary X c)
      (fun reply pair => reply = r ∧ Here p s pair) (Failed allow intent a refusal) := by
  refine (secondary_try alone steps agree (fun reply s' => reply = r ∧ s' = s)
    ?_ ?_).strengthen ?_
  · intro random reply s' ok
    rw [run random] at ok
    obtain ⟨rfl, rfl⟩ := Prod.mk.inj (Except.ok.inj ok)
    exact ⟨⟨rfl, rfl⟩, b, .refl, agree⟩
  · intro random e failed
    rw [run random] at failed
    simp at failed
  · intro reply pair ⟨s', ⟨same, known⟩, here⟩
    exact ⟨same, known ▸ here⟩

end

omit alone in
/-- Whatever the primary is, it stays known until the first call that changes it. -/
theorem fixPrimary {α : Type} {m : Program D α} {crash : Pair D → Prop}
    {post : α → Pair D → Prop} (h : ∀ p, (∃ b s, Steps intent a b ∧ Agree b p s) →
      Triple allow crash (Waiting intent a p) m post fail) :
    Triple allow crash (Since intent a) m post fail := by
  intro choices allowed n pair since
  obtain ⟨b, steps, holds⟩ := id since
  exact h pair.primary ⟨b, _, steps, holds.agree⟩ choices allowed n pair ⟨rfl, since⟩

/-- A read of the primary while a call may still be unanswered. -/
theorem primary_wait
    (run : ∀ (b : Position X identity) s random, Agree b p s → c.run X p random = .ok (r, p)) :
    Triple allow (Crashed allow intent a) (Waiting intent a p) (onPrimary X c)
      (fun reply pair => reply = r ∧ Waiting intent a p pair) fail := by
  refine Triple.step fun choice pair allowed waiting => ?_
  obtain ⟨known, since⟩ := waiting
  obtain ⟨primary, since⟩ := since.settle (alone choice allowed)
  rw [known] at primary
  obtain ⟨b, steps, holds⟩ := id since
  have agree := holds.agree
  rw [primary] at agree
  dsimp only
  rw [primary]
  by_cases before : choice.stopBefore = true
  · simp only [before, if_true]
    exact ⟨⟨choice, allowed, .inl before⟩, since⟩
  · have same : { pair.settle X choice with primary := p } = pair.settle X choice := by
      rw [← primary]
    simp only [before, run b _ _ agree, same]
    exact told_reply (fun after => ⟨⟨choice, allowed, .inr after⟩, since⟩) ⟨rfl, primary, since⟩

/-- The first call on the secondary settles what happened to the unanswered one. -/
theorem secondary_first (value : Node D → c.Reply)
    (run : ∀ (b : Position X identity) s random, Agree b p s →
      c.run X s random = .ok (value s, s)) :
    Triple allow (Crashed allow intent a) (Waiting intent a p) (onSecondary X c)
      (fun r pair => ∃ s, ((∃ b, Steps intent a b ∧ Agree b p s) ∧ r = value s) ∧
        Here p s pair) (Failed allow intent a refusal) := by
  refine Triple.step fun choice pair allowed waiting => ?_
  obtain ⟨known, since⟩ := waiting
  obtain ⟨primary, since⟩ := since.settle (alone choice allowed)
  obtain ⟨b, steps, holds⟩ := since
  have agree := holds.agree
  rw [primary.trans known] at agree
  dsimp only
  by_cases before : choice.stopBefore = true
  · simp only [before, if_true]
    exact ⟨⟨choice, allowed, .inl before⟩, b, steps, holds⟩
  · by_cases answered : choice.answered = true
    · simp only [before, answered, if_true, serve, run b _ _ agree]
      exact told_reply (fun after =>
        ⟨⟨choice, allowed, .inr after⟩, b, steps, .of_answered holds.agree rfl⟩)
        ⟨_, ⟨⟨b, steps, agree⟩, rfl⟩, primary.trans known, rfl, rfl⟩
    · have waiting : Since intent a
          { pair.settle X choice with inflight := some (c, choice.random) } := by
        refine ⟨b, steps, holds.agree, ?_⟩
        rintro call ⟨⟩
        simp only [Call.after, run b _ _ agree]
        exact ⟨b, .refl, holds.agree⟩
      simp only [before, answered]
      exact told_reply (fun after => ⟨⟨choice, allowed, .inr after⟩, waiting⟩)
        ⟨.inl ⟨rfl, choice, allowed, by simpa using answered⟩, waiting⟩

end Rules

end TerrapiVault.Replication.Pair
