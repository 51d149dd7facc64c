import TerrapiVault.Maintenance.Appliable

/-! `prepare_pair` is a one-way door: the pair it has closed for a request is applied
once the journal has decided the request, or stays closed. -/
namespace TerrapiVault.Maintenance

open Replication
open Recovery

variable {T : Type → Type} {E : Env T} {F C V : Type} {host : Host F C V} {trust : Trust}

/-- The pending row of a decided request. -/
def Prepared.decided (E : Env T) (r : Prepared) : Prepared :=
  { r with phase := .decided, decision := some (E.tokenDigest r.token) }

/-- The pending row of a node that is cut. -/
def Prepared.applied (E : Env T) (r : Prepared) : Prepared :=
  { r.decided E with phase := .applied }

/-- A row as `prepare_pair` writes it. -/
structure Prepared.Begun (r : Prepared) : Prop where
  format : r.format = 1
  phase : r.phase = .prepared
  decision : r.decision = none
  completion : r.completion = none
  abort : r.abort = none

namespace Prepared.Begun

variable {r : Prepared} (begun : r.Begun)

include begun in
theorem forward (digest : Id) : r.Forward digest :=
  { begun with phase := .inl ⟨begun.phase, begun.decision⟩ }

include begun in
theorem decided_forward : (r.decided E).Forward (E.tokenDigest r.token) :=
  { begun with phase := .inr ⟨.inl rfl, rfl⟩ }

include begun in
theorem applied_forward : (r.applied E).Forward (E.tokenDigest r.token) :=
  { begun with phase := .inr ⟨.inr rfl, rfl⟩ }

end Prepared.Begun

namespace Node

/-- The node is opened, records the decision and is cut, without an error. -/
def Applies (E : Env T) (host : Host F C V) (n : Node F C V) (request : Request) (j : Journal T)
    (trust : Trust) (policy : ℕ → Policy) (authority : Option CertifiedAuthority) : Prop :=
  ∀ random, ∃ h n' h' answer, n.openExisting E host n.identity request trust authority = .ok h ∧
    n.recordDecided E host h j trust policy = .ok (n', h') ∧
    n'.applyDecided E host h' j trust policy random = .ok answer

/-- What `prepare_pair` leaves unchecked; `digest` is that of the decided token. -/
structure Appliable (E : Env T) (host : Host F C V) (trust : Trust)
    (authority : Option CertifiedAuthority) (digest : Id) (r : Prepared) (n : Node F C V) : Prop where
  bound : n.Bound host r.request
  vouched : n.Vouched E host trust authority
  token : digest = E.tokenDigest r.token
  markerFits : E.bytes (E.encode (n.mark E r)) ≤ 64 * 1024
  decidedFits : E.bytes (E.encode (r.decided E)) ≤ 256 * 1024
  appliedFits : E.bytes (E.encode (r.applied E)) ≤ 256 * 1024
  extended : Extends E (n.segments.root.getD (r.plan.localPlan n.role).head.base)
    (n.segments.certificates.getD []) r.record

section Door

variable {n : Node F C V} {r : Prepared} {authority : Option CertifiedAuthority} {j : Journal T}
  {policy : ℕ → Policy} {c : CommittedTransition}

/-- The handle of a closed node. -/
def handle (n : Node F C V) (r : Prepared) (authority : Option CertifiedAuthority) : Handle :=
  ⟨n.identity, n.role, (n.inspected r n.store.base).1, r, false, authority⟩

theorem openExisting_prepared (steady : host.Steady) (recovered : n.Recovered host)
    (pre : n.Preflighted E host trust r.record) (begun : r.Begun) {h : Handle} :
    (n.prepared E r).openExisting E host n.identity r.request trust authority = .ok h ↔
      n.Closable E host trust authority r ∧ n.handle r authority = h := by
  obtain ⟨v, signed⟩ := pre.signed
  have forward := begun.forward v.tokenDigest
  have early : r.phase = .prepared ∨ r.phase = .decided := .inl begun.phase
  have first := @validatePending_prepared _ E _ _ _ host trust n r authority none steady recovered pre
    early v signed forward (fun _ none => nomatch none)
  have again := @validatePending_prepared _ E _ _ _ host trust n r authority (some r) steady recovered
    pre early v signed forward fun _ same => Option.some.inj same
  have marker : (n.prepared E r).marker = some (n.mark E r) := rfl
  simp only [openExisting, marker, checked_ok, require_eq_ok, Option.some.injEq, exists_eq_left']
  constructor
  · rintro ⟨_, _, ⟨inspection, prepared⟩, valid, _, _, rfl⟩
    obtain ⟨closable, same⟩ := first.mp valid
    obtain ⟨rfl, rfl⟩ := Prod.mk.inj same
    exact ⟨closable, rfl⟩
  · rintro ⟨closable, rfl⟩
    exact ⟨recovered.owned, closable.markerFits, _, first.mpr ⟨closable, rfl⟩, _,
      again.mpr ⟨closable, rfl⟩, rfl⟩

theorem recordDecided_prepared (steady : host.Steady) (recovered : n.Recovered host)
    (pre : n.Preflighted E host trust r.record) (begun : r.Begun)
    (closable : n.Closable E host trust authority r)
    (decided : j.fetch E r.request trust (policy 0) = .ok c) {answer : Node F C V × Handle} :
    (n.prepared E r).recordDecided E host (n.handle r authority) j trust policy = .ok answer ↔
      c.tokenDigest = E.tokenDigest r.token ∧
        (n.prepared E (r.decided E), { n.handle r authority with prepared := r.decided E }) = answer := by
  obtain ⟨v, signed⟩ : ∃ v, E.verifyHistorical r.token trust r.request = .ok v := pre.signed
  have digest : v.tokenDigest = E.tokenDigest r.token := Env.verifyHistorical_tokenDigest signed
  have early : r.phase = .prepared ∨ r.phase = .decided := .inl begun.phase
  have valid := (validatePending_prepared authority (some r) steady recovered pre early signed
    (begun.forward v.tokenDigest) (fun _ same => Option.some.inj same)).mpr ⟨closable, rfl⟩
  have retained : (n.prepared E r).validateRetained E host (n.handle r authority) trust = .ok () := by
    simp only [validateRetained, bind_eq_ok]
    exact ⟨_, valid, rfl⟩
  have prepared : (n.handle r authority).prepared = r := rfl
  simp only [recordDecided, replaceProgress, prepared, signed, retained, decided, begun.phase,
    begun.decision, if_neg (show Phase.prepared ≠ .decided by decide), ok_bind, checked_ok, digest]
  constructor
  · rintro ⟨_, matched, rfl⟩
    exact ⟨matched, rfl⟩
  · rintro ⟨matched, rfl⟩
    exact ⟨⟨trivial, trivial⟩, matched, rfl⟩

/-- The cut itself: what a decided row lacks. -/
theorem applyDecided_prepared (steady : host.Steady) (recovered : n.Recovered host)
    (pre : n.Preflighted E host trust r.record) (begun : r.Begun)
    (closable : n.Closable E host trust authority r)
    (decided : j.fetch E r.request trust (policy 0) = .ok c)
    (matched : c.tokenDigest = E.tokenDigest r.token) (random : Bytes32) :
    (∃ answer, (n.prepared E (r.decided E)).applyDecided E host
        { n.handle r authority with prepared := r.decided E } j trust policy random = .ok answer) ↔
      E.bytes (E.encode (r.decided E)) ≤ 256 * 1024 ∧ E.bytes (E.encode (r.applied E)) ≤ 256 * 1024 ∧
        Extends E (n.segments.root.getD (r.plan.localPlan n.role).head.base)
          (n.segments.certificates.getD []) r.record := by
  obtain ⟨v, signed⟩ : ∃ v, E.verifyHistorical r.token trust r.request = .ok v := pre.signed
  have digest : v.tokenDigest = E.tokenDigest r.token := Env.verifyHistorical_tokenDigest signed
  have retained : (n.prepared E (r.decided E)).validateRetained E host
      { n.handle r authority with prepared := r.decided E } trust = .ok () ↔
        E.bytes (E.encode (r.decided E)) ≤ 256 * 1024 := by
    have valid := @validatePending_prepared _ E _ _ _ host trust n (r.decided E) authority
      (some (r.decided E)) steady recovered pre (.inr rfl) v signed (digest ▸ begun.decided_forward)
      fun _ same => Option.some.inj same
    simp only [validateRetained, bind_eq_ok, pure_eq]
    constructor
    · rintro ⟨answer, ok, _⟩
      exact (valid.mp ok).1.rowFits
    · intro fits
      exact ⟨_, valid.mpr ⟨{ closable with rowFits := fits }, rfl⟩, trivial⟩
  have cut := validatePending_cut random (some (r.applied E)) steady recovered (r := r.applied E) pre
    closable.vouched rfl signed (digest ▸ begun.applied_forward) fun _ same => Option.some.inj same
  have certified : (n.prepared E (r.decided E)).certify (r.decided E) = .ok (n.extended r.record) :=
    certify_prepared recovered pre closable.vouched
  obtain ⟨view, current⟩ := pre.current
  have current : (n.prepared E (r.decided E)).store.current host.schema n.identity true =
      .ok ((r.plan.localPlan n.role).checkpoint, view) := (Store.current_unready ..).trans current
  have head : (n.prepared E (r.decided E)).store.head n.identity =
      .ok (r.plan.localPlan n.role).head := pre.head
  have unpinned : (n.prepared E (r.decided E)).requireUnpinned = .ok () := pre.unpinned
  have waiting : (r.decided E).phase ≠ .applied := by simp [Prepared.decided]
  constructor
  · rintro ⟨answer, ok⟩
    rw [applyDecided, if_neg waiting] at ok
    simp only [checked_ok] at ok
    obtain ⟨_, checked, _, _, _, _, _, _, _, _, _, segments, made, ok⟩ := ok
    obtain rfl := ok_unique certified made
    obtain ⟨answer, valid, _⟩ := ok
    obtain ⟨_, rowFits, _, extended⟩ := cut.mp ⟨answer, valid⟩
    exact ⟨retained.mp checked, rowFits, extended⟩
  · rintro ⟨decidedFits, appliedFits, extended⟩
    obtain ⟨answer, valid⟩ := cut.mpr ⟨closable.markerFits, appliedFits, closable.bound, extended⟩
    rw [applyDecided, if_neg waiting]
    simp only [checked_ok]
    exact ⟨_, ⟨rfl, rfl⟩, retained.mpr decidedFits, c, decided, congrArg some matched,
      unpinned, _, current, _, head, ⟨rfl, rfl⟩, _, certified, answer, valid, rfl⟩

theorem applies_prepared (steady : host.Steady) (recovered : n.Recovered host)
    (pre : n.Preflighted E host trust r.record) (begun : r.Begun)
    (small : E.bytes (E.encode r) ≤ 256 * 1024)
    (decided : j.fetch E r.request trust (policy 0) = .ok c) :
    (n.prepared E r).Applies E host r.request j trust policy authority ↔
      n.Appliable E host trust authority c.tokenDigest r := by
  constructor
  · intro applies
    obtain ⟨h, n', h', answer, opened, recorded, cut⟩ := applies zeroId
    obtain ⟨closable, rfl⟩ := (openExisting_prepared steady recovered pre begun).mp opened
    obtain ⟨matched, same⟩ :=
      (recordDecided_prepared steady recovered pre begun closable decided).mp recorded
    obtain ⟨rfl, rfl⟩ := Prod.mk.inj same
    obtain ⟨decidedFits, appliedFits, extended⟩ :=
      (applyDecided_prepared steady recovered pre begun closable decided matched zeroId).mp
        ⟨answer, cut⟩
    exact ⟨closable.bound, closable.vouched, matched, closable.markerFits, decidedFits, appliedFits,
      extended⟩
  · intro can random
    have closable : n.Closable E host trust authority r :=
      { can with rowFits := small }
    obtain ⟨answer, cut⟩ :=
      (applyDecided_prepared steady recovered pre begun closable decided can.token random).mpr
        ⟨can.decidedFits, can.appliedFits, can.extended⟩
    exact ⟨_, _, _, answer, (openExisting_prepared steady recovered pre begun).mpr ⟨closable, rfl⟩,
      (recordDecided_prepared steady recovered pre begun closable decided).mpr ⟨can.token, rfl⟩, cut⟩

end Door

end Node

theorem preparePair_prepared {node node' : Fin 2 → Node F C V} {opened : Fin 2 → Opened}
    {plan : PairPlan} {request : Request} {token : String} {now : ℕ}
    (ordinary : ∀ i, (node i).marker = none)
    (ok : preparePair E host node opened plan request token now trust 2 = .ok node') (i : Fin 2) :
    node' i = (node i).prepared E (.fresh plan request token) ∧
      (node i).Preflighted E host trust (Prepared.fresh plan request token).record ∧
      E.bytes (E.encode (Prepared.fresh plan request token)) ≤ 256 * 1024 := by
  simp only [preparePair, checked_ok] at ok
  obtain ⟨certified, v, issued, _, ⟨small, short⟩, first, absent, second, missing, checked,
    checked', left, written, right, written', rfl⟩ := ok
  have signed : ∃ v, E.verifyHistorical token trust request = .ok v :=
    ⟨v, Env.verifyIssuance_historical issued⟩
  have one : ∀ {n m : Node F C V} {o : Opened} {found : Bool} {k : ℕ}, n.marker = none → k < 3 →
      n.existing E host o trust (.fresh plan request token) = .ok found →
      unlessDone found () (n.preflight E host o (.fresh plan request token)) = .ok () →
      unlessDone (decide (found = true ∨ 2 < k)) n
        (n.writePrepared E (.fresh plan request token)) = .ok m →
      m = n.prepared E (.fresh plan request token) ∧
        n.Preflighted E host trust (Prepared.fresh plan request token).record := by
    intro n m o found k ordinary within exist check write
    rcases Node.existing_eq_ok exist with ⟨rfl, _⟩ | ⟨_, _, present⟩
    · have asked : decide ((false : Bool) = true ∨ 2 < k) = false := by
        simpa using Nat.le_of_lt_succ within
      rw [asked] at write
      obtain ⟨runtime, rfl⟩ := Node.writePrepared_eq_ok.mp write
      exact ⟨rfl, .of_preflight check runtime certified short signed⟩
    · rw [ordinary] at present
      cases present
  rcases Recovery.participant_cases i with rfl | rfl
  · obtain ⟨rfl, pre⟩ := one (ordinary 0) (by decide) absent checked written
    exact ⟨rfl, pre, small⟩
  · obtain ⟨rfl, pre⟩ := one (ordinary 1) (by decide) missing checked' written'
    exact ⟨rfl, pre, small⟩

/-- The pair that `prepare_pair` closed for a request the journal has decided is applied
exactly when both nodes meet what the call left unchecked. -/
theorem preparePair_applies {node node' : Fin 2 → Node F C V} {opened : Fin 2 → Opened}
    {plan : PairPlan} {request : Request} {token : String} {now : ℕ} (steady : host.Steady)
    (recovered : ∀ i, (node i).Recovered host)
    (ok : preparePair E host node opened plan request token now trust 2 = .ok node')
    {j : Journal T} {policy : ℕ → Policy} {c : CommittedTransition}
    (decided : ∀ k, j.fetch E request trust (policy k) = .ok c)
    (authority : Fin 2 → Option CertifiedAuthority) :
    (∀ i, (node' i).Applies E host request j trust policy (authority i)) ↔
      ∀ i, (node i).Appliable E host trust (authority i) c.tokenDigest
        (.fresh plan request token) := by
  refine forall_congr' fun i => ?_
  obtain ⟨same, pre, small⟩ := preparePair_prepared (fun i => (recovered i).ordinary) ok i
  rw [same]
  exact Node.applies_prepared steady (recovered i) pre ⟨rfl, rfl, rfl, rfl, rfl⟩ small (decided 0)

namespace Sample

open Recovery.Sample

theorem siteHost_steady : Host.Steady (F := Unit) siteHost :=
  ⟨fun _ _ _ _ _ => rfl, fun _ _ _ _ _ => rfl, fun _ _ _ _ _ => rfl⟩

theorem node_recovered (role : Role) : (node role).Recovered siteHost where
  owned := by
    unfold Node.Owned
    cases role <;> decide +kernel
  ordinary := rfl
  accounted := rfl
  generation := by
    rintro a found
    obtain rfl := Option.some.inj (Except.ok.inj found)
    rfl
  anchored := by
    rintro a found _
    obtain rfl := Option.some.inj (Except.ok.inj found)
    cases role <;> decide +kernel
  ascending := List.Pairwise.nil
  history := nofun

theorem site_recovered (i : Fin 2) : (site.node i).Recovered siteHost := node_recovered _

/-- A pair closed for its `n`-th request. -/
def closing (E : Env fun α => α) (node : Fin 2 → Node Unit Unit Unit) (opened : Opened) (n : ℕ)
    (request : Request) : Result (Fin 2 → Node Unit Unit Unit) :=
  preparePair E siteHost node (fun _ => opened) (sitePlan n) request (token .transition n) 0 trusted 2

/-- The pair after its first cycle and another write. -/
def cycled (i : Fin 2) : Node Unit Unit Unit := { site.node i with
  store := ⟨(), [⟨⟨identity, "more", []⟩, 2, zeros, zeros, [], zeros, .applied⟩],
    [⟨1, zeros, 1, ⟨"write", 1⟩⟩, ⟨1, zeros, 1, ⟨"more", 2⟩⟩], some (stateAt 1), some (stateAt 2),
    mark (i + 1), zeroId⟩
  segments := ⟨3, some (site.node i).store.base, some [(1, sitePlan 1)],
    some [(1, ⟨1, sitePlan 1, request 1, token .transition 1⟩)], some (1, mark 1, mark 5, mark 1)⟩
  publication := some (manifest 2) }

theorem cycled_recovered (i : Fin 2) : (cycled i).Recovered siteHost where
  owned := (site_recovered i).owned
  ordinary := rfl
  accounted := rfl
  generation := by
    rintro a found
    obtain rfl := Option.some.inj (Except.ok.inj found)
    rcases participant_cases i with rfl | rfl <;> rfl
  anchored := nofun
  ascending := List.pairwise_singleton ..
  history := by
    rintro _ ⟨⟩
    rfl

/-- The journal that completed the first cycle and decided the second. -/
def journal : Journal fun α => α := after (firstCycle ++ [decided 2])

def opened : Opened where
  transitionTrust := trusted
  certifiedAuthority := some ⟨((after firstCycle).fetchCompleted siteEnv · trusted policy),
    (journal.fetchCompletedRevision siteEnv · trusted policy)⟩

theorem cycled_appliable (i : Fin 2) :
    (cycled i).Appliable siteEnv siteHost trusted opened.certifiedAuthority (committed 2).tokenDigest
      (.fresh (sitePlan 2) (request 2) (token .transition 2)) where
  bound := ⟨active (site.node i).role, rfl, by
    rcases participant_cases i with rfl | rfl <;> exact ⟨rfl, rfl⟩⟩
  vouched _ := by rcases participant_cases i with rfl | rfl <;> decide +kernel
  token := by decide +kernel
  markerFits := show 1 ≤ 64 * 1024 by decide
  decidedFits := show 1 ≤ 256 * 1024 by decide
  appliedFits := show 1 ≤ 256 * 1024 by decide
  extended := ⟨(by decide : 1 < maxCertificateRows), show 1 ≤ 256 * 1024 by decide,
    show 1 ≤ 128 * 1024 by decide, show 1 ≤ maxCertificateBytes by decide, by
      simp only [cycled, Option.getD_some, List.mem_singleton, forall_eq]
      decide +kernel⟩

theorem preparePair_applies_second : ∃ node',
    closing siteEnv cycled opened 2 (request 2) = .ok node' ∧ ∀ i, (node' i).Applies siteEnv siteHost
      (request 2) journal trusted asks opened.certifiedAuthority := by
  have closed := ok_get (r := closing siteEnv cycled opened 2 (request 2)) (by decide +kernel)
  have fetched : journal.fetch siteEnv (request 2) trusted policy = .ok (committed 2) := by
    decide +kernel
  exact ⟨_, closed, (preparePair_applies siteHost_steady cycled_recovered closed (fun _ => fetched)
    fun _ => opened.certifiedAuthority).mpr cycled_appliable⟩

/-- The first request, with members that are not those of the pair. -/
def strayRequest : Request :=
  { request 1 with participants := fun i => { participant 1 i with member := mark (i + 3) } }

def strayBody : (d : Document) → ℕ → d.Body
  | .transition => fun _ => strayRequest
  | d => body d

/-- The environment whose authority signs it. -/
def strayEnv : Env fun α => α := carrying fun d n => strayBody d (n % 8)

/-- A new journal that has decided it. -/
def deciding : Result (Journal (fun α => α) × CommittedTransition) :=
  created.decide strayEnv strayRequest (token .transition 1) 0 trusted policy

/-- The decision can be read back. -/
abbrev Readable (decided : Journal (fun α => α) × CommittedTransition) : Prop :=
  decided.1.fetch strayEnv strayRequest trusted policy = .ok decided.2 ∧
    decided.2.tokenDigest = strayEnv.tokenDigest (token .transition 1)

/-- `prepare_pair` closes the pair for it and the journal decides it, and neither node can
be opened again. -/
theorem stray_member_closes_for_good :
    Host.Steady (F := Unit) siteHost ∧ (∀ i, (site.node i).Recovered siteHost) ∧
    ∃ node' j c, closing strayEnv site.node ⟨none, none⟩ 1 strayRequest = .ok node' ∧
      deciding = .ok (j, c) ∧ Readable (j, c) ∧
      (∀ i, (node' i).openExisting strayEnv siteHost (node' i).identity strayRequest trusted none =
        .error (.message "pending live member/generation mismatch")) ∧
      ¬∀ i, (node' i).Applies strayEnv siteHost strayRequest j trusted asks none := by
  have closes : (closing strayEnv site.node ⟨none, none⟩ 1 strayRequest).toOption.any (fun node' => ∀ i, refusal
      ((node' i).openExisting strayEnv siteHost (node' i).identity strayRequest trusted none) =
        some (.message "pending live member/generation mismatch")) = true := by
    decide +kernel
  have decides : deciding.toOption.any (Readable ·) = true := by decide +kernel
  obtain ⟨node', closed, refused⟩ := exists_of_any closes
  obtain ⟨⟨j, c⟩, decided, readable⟩ := exists_of_any decides
  have refused := fun i => eq_error_of_refusal (of_decide_eq_true refused i)
  refine ⟨siteHost_steady, site_recovered, node', j, c, closed, decided, of_decide_eq_true readable,
    refused, fun applies => ?_⟩
  obtain ⟨h, _, _, _, opened, _⟩ := applies 0 zeroId
  cases (refused 0).symm.trans opened

end Sample

end TerrapiVault.Maintenance
