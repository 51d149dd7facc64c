import Mathlib.Algebra.Group.Nat.Defs
import Mathlib.Logic.Relation
import Mathlib.Data.List.Pairwise

/-! The cached key set of the token verifiers. A call decides under the lock, fetches
without it, and what it fetched is stored when its fetch ends. -/
namespace TerrapiVault.Broker

open Relation (ReflTransGen)

/-! Times are in nanoseconds. -/

def minJwksRefetch : ℕ := 30 * 10 ^ 9

def jwksMaxAge : ℕ := 600 * 10 ^ 9

variable {ε K Q : Type}

abbrev JwkSet (K : Type) := List (String × K)

def JwkSet.find (set : JwkSet K) (kid : String) : Option K :=
  (List.find? (fun e => e.1 = kid) set).map Prod.snd

structure JwksCache (K : Type) where
  set : Option (JwkSet K) := none
  lastFetch : Option ℕ := none
  fetchedAt : Option ℕ := none

inductive Plan (K : Type) where
  | use (jwk : K)
  | refetch
  | reject

namespace JwksCache

variable (c : JwksCache K)

def throttled (now : ℕ) : Bool := c.lastFetch.any fun t => now - t < minJwksRefetch

def fresh (now : ℕ) : Bool := c.fetchedAt.any fun t => now - t < jwksMaxAge

def find (kid : String) : Option K := c.set.bind fun set => set.find kid

def plan (now : ℕ) (kid : String) : Plan K :=
  match c.find kid with
  | some jwk => if c.fresh now || c.throttled now then .use jwk else .refetch
  | none => if c.throttled now then .reject else .refetch

end JwksCache

/-- What a verifier's `key_for` needs besides its cache. -/
structure KeySource (ε K Q : Type) where
  unknownKid : ε
  fromJwk : K → Except ε Q

inductive JwtError where
  | unknownKid
  | jwks (text : String)

inductive OidcError where
  | unknownKid
  | jwks (text : String)

/-- `JwtVerifier` of the broker. -/
def jwtVerifier (decode : K → Except String Q) : KeySource JwtError K Q where
  unknownKid := .unknownKid
  fromJwk jwk := (decode jwk).mapError .jwks

/-- `OidcClient` of the console. -/
def oidcClient (decode : K → Except String Q) : KeySource OidcError K Q where
  unknownKid := .unknownKid
  fromJwk jwk := (decode jwk).mapError .jwks

/-- A call of `key_for` that waits for its fetch. -/
structure Fetch where
  kid : String
  started : ℕ

/-- One verifier: its cache, the calls that wait, and when its fetches were started. -/
structure Verifier (K : Type) where
  now : ℕ := 0
  cache : JwksCache K := {}
  fetching : List Fetch := []
  starts : List ℕ := []

namespace Verifier

variable (S : KeySource ε K Q) (published : ℕ → JwkSet K) (v : Verifier K)

/-- `key_for` up to its answer or its fetch. -/
def call (kid : String) : Verifier K × Option (Except ε Q) :=
  match v.cache.plan v.now kid with
  | .use jwk => (v, some (S.fromJwk jwk))
  | .reject => (v, some (.error S.unknownKid))
  | .refetch =>
    ({ v with fetching := v.fetching ++ [⟨kid, v.now⟩], starts := v.starts ++ [v.now] }, none)

/-- `key_for` after its fetch; `rest` are the other calls that wait. -/
def finish (f : Fetch) (rest : List Fetch) (fetched : Except ε (JwkSet K)) :
    Verifier K × Except ε Q :=
  let stamped := { v.cache with lastFetch := some v.now }
  match fetched with
  | .ok set =>
    ({ v with cache := { stamped with set := some set, fetchedAt := some v.now }, fetching := rest },
      (set.find f.kid).elim (.error S.unknownKid) S.fromJwk)
  | .error e =>
    ({ v with cache := stamped, fetching := rest },
      (v.cache.find f.kid).elim (.error e) S.fromJwk)

/-- Time passes, a call comes in, or a fetch ends, with a set that the provider published
while it was under way or with an error. A call whose caller goes away is dropped in its
fetch and stores nothing. -/
inductive Step : Verifier K → Verifier K → Prop
  | pass (v : Verifier K) (d : ℕ) : Step v { v with now := v.now + d }
  | call (v : Verifier K) (kid : String) : Step v (v.call S kid).1
  | finish (v : Verifier K) (f : Fetch) (front back : List Fetch)
    (fetched : Except ε (JwkSet K)) (flying : v.fetching = front ++ f :: back)
    (read : ∀ set, fetched = .ok set → ∃ t, f.started ≤ t ∧ t ≤ v.now ∧ set = published t) :
    Step v (v.finish S f (front ++ back) fetched).1
  | drop (v : Verifier K) (f : Fetch) (front back : List Fetch)
    (flying : v.fetching = front ++ f :: back) : Step v { v with fetching := front ++ back }

/-- A fetch is started once every earlier one has been recorded. -/
def Recorded (v v' : Verifier K) : Prop :=
  v'.starts ≠ v.starts → ∀ t ∈ v.starts, ∃ last ∈ v.cache.lastFetch, t ≤ last

variable {S published v} {v' : Verifier K}

theorem call_cases (kid : String) : (v.call S kid).1 = v ∨ v.cache.throttled v.now = false ∧
    (v.call S kid).1 = { v with
      fetching := v.fetching ++ [⟨kid, v.now⟩], starts := v.starts ++ [v.now] } := by
  unfold call JwksCache.plan
  cases v.cache.find kid with
  | none =>
    cases held : v.cache.throttled v.now with
    | true => exact .inl rfl
    | false => exact .inr ⟨rfl, rfl⟩
  | some jwk =>
    cases held : v.cache.throttled v.now with
    | true => exact .inl (by simp)
    | false =>
      cases v.cache.fresh v.now with
      | true => exact .inl rfl
      | false => exact .inr ⟨rfl, rfl⟩

theorem finish_starts (f : Fetch) (rest : List Fetch) (fetched : Except ε (JwkSet K)) :
    (v.finish S f rest fetched).1.starts = v.starts := by
  cases fetched <;> rfl

theorem Step.apart (stepped : Step S published v v') (recorded : Recorded v v')
    (apart : v.starts.Pairwise fun a b => a + minJwksRefetch ≤ b) :
    v'.starts.Pairwise fun a b => a + minJwksRefetch ≤ b := by
  cases stepped with
  | pass d => exact apart
  | call kid =>
    obtain same | ⟨free, same⟩ := v.call_cases (S := S) kid
    · rwa [same]
    rw [same] at recorded ⊢
    refine List.pairwise_append.mpr ⟨apart, List.pairwise_singleton _ _, ?_⟩
    intro t mem now here
    obtain rfl := List.mem_singleton.mp here
    obtain ⟨last, stamp, behind⟩ := recorded (by simp) t mem
    simp only [JwksCache.throttled, Option.mem_def.mp stamp, Option.any_some,
      decide_eq_false_iff_not] at free
    have interval : 0 < minJwksRefetch := by decide
    omega
  | finish f front back fetched flying read => rwa [finish_starts]
  | drop f front back flying => exact apart

/-- While every fetch is recorded before the next one is started, two fetches are started at
least the refetch interval apart. -/
theorem fetches_apart {v : Verifier K}
    (run : ReflTransGen (fun v v' => Step S published v v' ∧ Recorded v v') {} v) :
    v.starts.Pairwise fun a b => a + minJwksRefetch ≤ b := by
  induction run with
  | refl => exact .nil
  | tail _ stepped ih => exact stepped.1.apart stepped.2 ih

/-- The key is neither cached nor in any set that a waiting call can still get. -/
structure Retired (removal : ℕ) (kid : String) (v : Verifier K) : Prop where
  absent : v.cache.find kid = none
  elapsed : removal ≤ v.now
  late : ∀ f ∈ v.fetching, removal ≤ f.started

variable {removal : ℕ} {kid : String}

theorem Retired.others (retired : Retired removal kid v) {f : Fetch} {front back : List Fetch}
    (flying : v.fetching = front ++ f :: back) : ∀ g ∈ front ++ back, removal ≤ g.started :=
  fun g mem => retired.late g
    (flying ▸ ((List.sublist_cons_self f back).append_left front).subset mem)

theorem Retired.step (gone : ∀ t, removal ≤ t → (published t).find kid = none)
    (retired : Retired removal kid v) (stepped : Step S published v v') :
    Retired removal kid v' := by
  cases stepped with
  | pass d => exact ⟨retired.absent, Nat.le_add_right_of_le retired.elapsed, retired.late⟩
  | call other =>
    obtain same | ⟨_, same⟩ := v.call_cases (S := S) other
    · rwa [same]
    rw [same]
    refine ⟨retired.absent, retired.elapsed, List.forall_mem_append.mpr ⟨retired.late, ?_⟩⟩
    exact List.forall_mem_singleton.mpr retired.elapsed
  | finish f front back fetched flying read =>
    have others := retired.others flying
    cases fetched with
    | ok set =>
      obtain ⟨t, after, _, rfl⟩ := read set rfl
      have late := retired.late f (by simp [flying])
      exact ⟨gone t (Nat.le_trans late after), retired.elapsed, others⟩
    | error e => exact ⟨retired.absent, retired.elapsed, others⟩
  | drop f front back flying => exact ⟨retired.absent, retired.elapsed, retired.others flying⟩

theorem Retired.unanswered (gone : ∀ t, removal ≤ t → (published t).find kid = none)
    (retired : Retired removal kid v) :
    (∀ key, (v.call S kid).2 ≠ some (.ok key)) ∧
    ∀ f ∈ v.fetching, f.kid = kid → ∀ rest fetched,
      (∀ set, fetched = .ok set → ∃ t, f.started ≤ t ∧ t ≤ v.now ∧ set = published t) →
      ∀ key, (v.finish S f rest fetched).2 ≠ .ok key := by
  refine ⟨fun key => ?_, ?_⟩
  · unfold call JwksCache.plan
    rw [retired.absent]
    cases v.cache.throttled v.now <;> simp
  · rintro f mem rfl rest fetched read key
    cases fetched with
    | ok set =>
      obtain ⟨t, after, _, rfl⟩ := read set rfl
      simp [finish, gone t (Nat.le_trans (retired.late f mem) after)]
    | error e => simp [finish, retired.absent]

/-- A key that the provider removed is out for good once a fetch started after its removal
is stored, if no fetch started before the removal is then still under way. -/
theorem retired_key_out (gone : ∀ t, removal ≤ t → (published t).find kid = none) {f : Fetch}
    {front back : List Fetch} {t : ℕ} (late : removal ≤ f.started)
    (read : f.started ≤ t ∧ t ≤ v.now) (others : ∀ g ∈ front ++ back, removal ≤ g.started)
    (later : ReflTransGen (Step S published)
      (v.finish S f (front ++ back) (.ok (published t))).1 v') :
    (∀ key, (v'.call S kid).2 ≠ some (.ok key)) ∧
    ∀ f ∈ v'.fetching, f.kid = kid → ∀ rest fetched,
      (∀ set, fetched = .ok set → ∃ t, f.started ≤ t ∧ t ≤ v'.now ∧ set = published t) →
      ∀ key, (v'.finish S f rest fetched).2 ≠ .ok key := by
  have stored : Retired removal kid (v.finish S f (front ++ back) (.ok (published t))).1 :=
    ⟨gone t (Nat.le_trans late read.1), Nat.le_trans late (Nat.le_trans read.1 read.2), others⟩
  have retired : Retired removal kid v' := by
    induction later with
    | refl => exact stored
    | tail _ stepped ih => exact ih.step gone stepped
  exact retired.unanswered gone

end Verifier

namespace Sample

/-- A key set with one key, which is removed at time 1. -/
def published (t : ℕ) : JwkSet ℕ := if t = 0 then [("k", 7)] else []

theorem published_gone (t : ℕ) (late : 1 ≤ t) : (published t).find "k" = none := by
  rw [published, if_neg (by omega)]
  rfl

def verifier : KeySource JwtError ℕ ℕ := jwtVerifier .ok

/-- One call has waited for its fetch since time 0. -/
def waiting : Verifier ℕ := (({} : Verifier ℕ).call verifier "k").1

/-- Two calls that overlap start two fetches at one time. -/
theorem fetches_together :
    ReflTransGen (Verifier.Step verifier published) {} (waiting.call verifier "other").1 ∧
      (waiting.call verifier "other").1.starts = [0, 0] :=
  ⟨.tail (.single (.call _ "k")) (.call _ "other"), rfl⟩

/-- The fetch has failed, and the interval has passed. -/
def failed : Verifier ℕ :=
  { (waiting.finish verifier ⟨"k", 0⟩ [] (.error (.jwks ""))).1 with now := minJwksRefetch }

theorem fetches_apart_failed :
    (failed.call verifier "k").1.starts = [0, minJwksRefetch] ∧
    (failed.call verifier "k").1.starts.Pairwise fun a b => a + minJwksRefetch ≤ b := by
  have first : Verifier.Recorded ({} : Verifier ℕ) waiting := fun _ _ mem => nomatch mem
  have second : Verifier.Recorded failed (failed.call verifier "k").1 := by
    intro _ t mem
    obtain rfl := List.mem_singleton.mp mem
    exact ⟨0, rfl, Nat.le_refl 0⟩
  have run : ReflTransGen
      (fun v v' => Verifier.Step verifier published v v' ∧ Verifier.Recorded v v')
      {} (failed.call verifier "k").1 :=
    .tail (.tail (.tail (.single ⟨.call _ "k", first⟩) ⟨.finish _ ⟨"k", 0⟩ [] []
      (.error (.jwks "")) rfl (by simp), fun other => absurd rfl other⟩)
      ⟨.pass _ minJwksRefetch, fun other => absurd rfl other⟩) ⟨.call _ "k", second⟩
  exact ⟨rfl, Verifier.fetches_apart run⟩

/-- The key is removed, and a second call has waited since then. -/
def overlapping : Verifier ℕ := ({ waiting with now := 1 }.call verifier "k").1

def refreshed : Verifier ℕ :=
  (overlapping.finish verifier ⟨"k", 1⟩ [⟨"k", 0⟩] (.ok (published 1))).1

def reinstated : Verifier ℕ := (refreshed.finish verifier ⟨"k", 0⟩ [] (.ok (published 0))).1

/-- The older fetch ends last and brings the removed key back. -/
theorem retired_key_back :
    ReflTransGen (Verifier.Step verifier published) {} overlapping ∧
    ReflTransGen (Verifier.Step verifier published) refreshed reinstated ∧
    (∀ t, 1 ≤ t → (published t).find "k" = none) ∧
    (reinstated.call verifier "k").2 = some (.ok 7) := by
  refine ⟨.tail (.tail (.single (.call _ "k")) (.pass _ 1)) (.call _ "k"), .single ?_,
    published_gone, rfl⟩
  exact .finish _ ⟨"k", 0⟩ [] [] (.ok (published 0)) rfl
    fun set same => ⟨0, Nat.le_refl _, Nat.zero_le _, (Except.ok.inj same).symm⟩

def cached : Verifier ℕ := (waiting.finish verifier ⟨"k", 0⟩ [] (.ok (published 0))).1

/-- The cached key has grown old, and a call asks for it again. -/
def asked : Verifier ℕ := ({ cached with now := jwksMaxAge }.call verifier "k").1

def replaced : Verifier ℕ :=
  (asked.finish verifier ⟨"k", jwksMaxAge⟩ [] (.ok (published jwksMaxAge))).1

theorem retired_key_out_refreshed :
    ReflTransGen (Verifier.Step verifier published) {} replaced ∧
    (cached.call verifier "k").2 = some (.ok 7) ∧
    (replaced.call verifier "k").2 = some (.error .unknownKid) ∧
    ∀ key, (replaced.call verifier "k").2 ≠ some (.ok key) := by
  have others : ∀ g ∈ ([] ++ [] : List Fetch), 1 ≤ g.started := by simp
  have stored : ReflTransGen (Verifier.Step verifier published) {} cached :=
    .tail (.single (.call _ "k")) (.finish _ ⟨"k", 0⟩ [] [] (.ok (published 0)) rfl
      fun set same => ⟨0, Nat.le_refl _, Nat.le_refl _, (Except.ok.inj same).symm⟩)
  have renewed : Verifier.Step verifier published asked replaced :=
    .finish _ ⟨"k", jwksMaxAge⟩ [] [] (.ok (published jwksMaxAge)) rfl
      fun set same => ⟨jwksMaxAge, Nat.le_refl _, Nat.le_refl _, (Except.ok.inj same).symm⟩
  refine ⟨.tail (.tail (.tail stored (.pass _ jwksMaxAge)) (.call _ "k")) renewed, rfl, rfl, ?_⟩
  exact (Verifier.retired_key_out published_gone (show 1 ≤ jwksMaxAge by decide)
    ⟨Nat.le_refl _, Nat.le_refl _⟩ others .refl).1

end Sample

end TerrapiVault.Broker
