import TerrapiVault.Recovery.Request

/-! Signed documents. A token is a compact JWS whose payload carries one of five
documents; the five verifiers share their shape. JSON, SHA-256, base64url and the
ES256 check are fields of `Env`. -/
namespace TerrapiVault.Recovery

open Replication (Result ensure)

def require {α : Type} (value : Option α) (text : String) : Result α :=
  match value with
  | some a => pure a
  | none => throw (.message text)

@[simp] theorem require_eq_ok {α : Type} {value : Option α} {text : String} {a : α} :
    require value text = .ok a ↔ value = some a := by
  cases value <;> simp [require]

inductive Document where
  | transition
  | abort
  | loss
  | successor
  | successorAbort
deriving DecidableEq

namespace Document

abbrev Body : Document → Type
  | .transition => Request
  | .abort => MaintenanceAbort
  | .loss => LossRequest
  | .successor => LossSuccessorRequest
  | .successorAbort => LossSuccessorAbort

instance : (d : Document) → DecidableEq d.Body
  | .transition => inferInstanceAs (DecidableEq Request)
  | .abort => inferInstanceAs (DecidableEq MaintenanceAbort)
  | .loss => inferInstanceAs (DecidableEq LossRequest)
  | .successor => inferInstanceAs (DecidableEq LossSuccessorRequest)
  | .successorAbort => inferInstanceAs (DecidableEq LossSuccessorAbort)

def validate : (d : Document) → d.Body → Result Unit
  | .transition => Request.validate
  | .abort => MaintenanceAbort.validate
  | .loss => LossRequest.validate
  | .successor => LossSuccessorRequest.validate
  | .successorAbort => LossSuccessorAbort.validate

def tokenType : Document → String
  | .transition => "terrapi-checkpoint-transition+jwt"
  | .abort => "terrapi-maintenance-abort+jwt"
  | .loss => "terrapi-participant-loss+jwt"
  | .successor => "terrapi-loss-successor+jwt"
  | .successorAbort => "terrapi-loss-successor-abort+jwt"

def action : Document → String
  | .transition => "compact_pair"
  | .abort => "abort_compact_pair"
  | .loss => "terminate_and_replace"
  | .successor => "activate_loss_successor"
  | .successorAbort => "abort_loss_successor"

end Document

structure Header where
  alg : String
  kid : String
  typ : String

structure Claims (R : Type) where
  version : ℕ
  iss : String
  aud : String
  action : String
  certificateId : Id
  iat : ℕ
  nbf : ℕ
  exp : ℕ
  request : R
  requestDigest : Id

structure Trust where
  profile : Profile
  keys : List (String × List UInt8)
  maxLifetime : ℕ

/-- `T α` is the stored JSON text of an `α`; `bytes` is its length, `characters`
the length SQL reports. -/
structure Env (T : Type → Type) where
  encode : {α : Type} → α → T α
  decode : {α : Type} → T α → Option α
  bytes : {α : Type} → T α → ℕ
  characters : {α : Type} → T α → ℕ
  sha256 : {α : Type} → T α → Id
  tokenDigest : String → Id
  fromBase64 : String → Option (List UInt8)
  toBase64 : List UInt8 → String
  header : List UInt8 → Option Header
  claims : (d : Document) → List UInt8 → Option (Claims d.Body)
  signed : List UInt8 → String → List UInt8 → Bool
  decode_encode : ∀ {α : Type} (value : α), decode (encode value) = some value
  characters_le_bytes : ∀ {α : Type} (text : T α), characters text ≤ bytes text

/-- `str::split('.')`. -/
def splitDots : List Char → List (List Char)
  | [] => [[]]
  | c :: rest =>
    if c = '.' then [] :: splitDots rest
    else
      match splitDots rest with
      | [] => [[c]]
      | part :: parts => (c :: part) :: parts

def segments (token : String) : List String := (splitDots token.toList).map String.ofList

def maxToken : ℕ := 64 * 1024

namespace Env

variable {T : Type → Type} (E : Env T)

def digest {α : Type} (value : α) : Id := E.sha256 (E.encode value)

/-- `digest` of a document: it validates first. -/
def documentDigest (d : Document) (body : d.Body) : Result Id := do
  d.validate body
  pure (E.digest body)

def decodeSegment (segment : String) : Result (List UInt8) := do
  let bytes ← require (E.fromBase64 segment) "encoding"
  ensure (segment ≠ "" ∧ E.toBase64 bytes = segment) "noncanonical encoding"
  pure bytes

/-- The part every verifier begins with: shape, header, key, signature, claims. -/
def openToken (d : Document) (token : String) (trust : Trust) (expected : d.Body)
    (purpose : Header → Bool) : Result (Claims d.Body) := do
  d.validate expected
  trust.profile.validate
  ensure (token.utf8ByteSize ≤ maxToken) "token limit"
  let parts := segments token
  let h ← require parts[0]? "header"
  let p ← require parts[1]? "payload"
  let s ← require parts[2]? "signature"
  ensure (parts.length ≤ 3 ∧ h.utf8ByteSize ≤ 1024) "compact shape"
  let header ← require (E.header (← E.decodeSegment h)) "header schema"
  ensure (purpose header) "header purpose"
  let keys := trust.keys.filter fun key => key.1 = header.kid
  let key ← require keys[0]? "untrusted key"
  ensure (keys.length ≤ 1) "ambiguous key"
  let signature ← E.decodeSegment s
  ensure (signature.length = 64) "signature shape"
  ensure (E.signed key.2 (h ++ "." ++ p) signature) "signature"
  require (E.claims d (← E.decodeSegment p)) "claim schema"

/-- `verify_abort`, `verify`, `verify_loss_successor`, `verify_successor_abort`. -/
def verifyDocument (d : Document) (token : String) (trust : Trust) (expected : d.Body)
    (now : Option ℕ) : Result Id := do
  let c ← E.openToken d token trust expected fun header =>
    header.alg = "ES256" ∧ header.typ = d.tokenType ∧ header.kid ≠ ""
  ensure (c.iat ≤ c.exp) "time order"
  let life := c.exp - c.iat
  ensure (c.version = 1 ∧ c.iss = trust.profile.issuer ∧ c.aud = trust.profile.audience ∧
    c.action = d.action ∧ c.certificateId ≠ zeroId ∧ life ≠ 0 ∧ life ≤ trust.maxLifetime ∧
    c.iat ≤ c.nbf ∧ c.nbf < c.exp) "claim purpose"
  ensure (∀ n ∈ now, c.nbf ≤ n ∧ n < c.exp) "time window"
  let digest ← E.documentDigest d expected
  ensure (c.request = expected ∧ c.requestDigest = digest) "request binding"
  pure c.certificateId

/-- The transition verifier also binds the profile's own token type and reports a
bad lifetime as a time window. -/
def verifyCommon (token : String) (trust : Trust) (expected : Request) :
    Result (Claims Request) := do
  let c ← E.openToken .transition token trust expected fun header =>
    trust.profile.tokenType = Document.transition.tokenType ∧ header.alg = "ES256" ∧
      header.typ = Document.transition.tokenType ∧ header.kid ≠ ""
  ensure (c.iat ≤ c.exp) "time order"
  let lifetime := c.exp - c.iat
  ensure (c.version = 1 ∧ c.iss = trust.profile.issuer ∧ c.aud = trust.profile.audience ∧
    c.action = Document.transition.action ∧ c.certificateId ≠ zeroId) "claim purpose"
  ensure (lifetime ≠ 0 ∧ lifetime ≤ trust.maxLifetime ∧ c.iat ≤ c.nbf ∧ c.nbf < c.exp)
    "time window"
  let digest ← E.documentDigest .transition expected
  ensure (c.request = expected ∧ c.requestDigest = digest) "request binding"
  pure c

end Env

/-- `VerifiedIssuance` and `VerifiedHistorical`. -/
structure Verified where
  certificateId : Id
  tokenDigest : Id

variable {now : Option ℕ} {v : Verified}

namespace Env

variable {T : Type → Type} (E : Env T)

def verifyIssuance (token : String) (trust : Trust) (expected : Request) (now : ℕ) :
    Result Verified := do
  let claims ← E.verifyCommon token trust expected
  ensure (claims.nbf ≤ now ∧ now < claims.exp) "time window"
  pure ⟨claims.certificateId, E.tokenDigest token⟩

def verifyHistorical (token : String) (trust : Trust) (expected : Request) : Result Verified := do
  let claims ← E.verifyCommon token trust expected
  pure ⟨claims.certificateId, E.tokenDigest token⟩

def verifyAbortIssuance (token : String) (trust : Trust) (expected : MaintenanceAbort) (now : ℕ) :
    Result Id :=
  E.verifyDocument .abort token trust expected (some now)

def verifyAbortHistorical (token : String) (trust : Trust) (expected : MaintenanceAbort) :
    Result Id :=
  E.verifyDocument .abort token trust expected none

def verifyLossIssuance (token : String) (trust : Trust) (expected : LossRequest) (now : ℕ) :
    Result Id :=
  E.verifyDocument .loss token trust expected (some now)

def verifyLossHistorical (token : String) (trust : Trust) (expected : LossRequest) : Result Id :=
  E.verifyDocument .loss token trust expected none

def verifySuccessorIssuance (token : String) (trust : Trust) (expected : LossSuccessorRequest)
    (now : ℕ) : Result Id :=
  E.verifyDocument .successor token trust expected (some now)

def verifySuccessorHistorical (token : String) (trust : Trust)
    (expected : LossSuccessorRequest) : Result Id :=
  E.verifyDocument .successor token trust expected none

def verifySuccessorAbortIssuance (token : String) (trust : Trust)
    (expected : LossSuccessorAbort) (now : ℕ) : Result Id :=
  E.verifyDocument .successorAbort token trust expected (some now)

def verifySuccessorAbortHistorical (token : String) (trust : Trust)
    (expected : LossSuccessorAbort) : Result Id :=
  E.verifyDocument .successorAbort token trust expected none

variable {E} {d : Document} {token : String} {trust other : Trust}

@[simp] theorem documentDigest_eq_ok {body : d.Body} {id : Id} :
    E.documentDigest d body = .ok id ↔ d.validate body = .ok () ∧ E.digest body = id := by
  rw [documentDigest, unit_bind_eq_ok, pure_eq, Except.ok.injEq]

/-- The claims are read from the second segment. -/
theorem openToken_eq_ok {expected : d.Body} {purpose : Header → Bool} {c : Claims d.Body}
    (opened : E.openToken d token trust expected purpose = .ok c) :
    ∃ p bytes, (segments token)[1]? = some p ∧ E.decodeSegment p = .ok bytes ∧
      E.claims d bytes = some c := by
  simp only [openToken, run_ok, require_eq_ok] at opened
  obtain ⟨valid, profile, limit, h, first, p, payload, s, third, shape, text, decodedHeader, header,
    known, purposed, key, trusted, single, signature, decodedSignature, size, signed, bytes, decoded,
    found⟩ := opened
  exact ⟨p, bytes, payload, decoded, found⟩

theorem openToken_unique {expected expected' : d.Body} {purpose purpose' : Header → Bool}
    {c c' : Claims d.Body} (opened : E.openToken d token trust expected purpose = .ok c)
    (opened' : E.openToken d token other expected' purpose' = .ok c') : c = c' := by
  obtain ⟨p, bytes, payload, decoded, found⟩ := openToken_eq_ok opened
  obtain ⟨p', bytes', payload', decoded', found'⟩ := openToken_eq_ok opened'
  obtain rfl : p = p' := Option.mem_unique payload payload'
  obtain rfl : bytes = bytes' := ok_unique decoded decoded'
  exact Option.mem_unique found found'

/-- What a verified document is known to satisfy; the window matters at issuance only. -/
theorem verifyDocument_eq_ok {expected : d.Body} {id : Id}
    (verified : E.verifyDocument d token trust expected now = .ok id) :
    ∃ c, E.openToken d token trust expected (fun header =>
        header.alg = "ES256" ∧ header.typ = d.tokenType ∧ header.kid ≠ "") = .ok c ∧
      c.certificateId = id ∧ (∀ n ∈ now, c.nbf ≤ n ∧ n < c.exp) ∧
      d.validate expected = .ok () ∧ id ≠ zeroId ∧
      E.verifyDocument d token trust expected none = .ok id := by
  have kept := verified
  simp only [verifyDocument, checked_ok] at verified
  obtain ⟨c, opened, order, purpose, window, digest, hashed, bound, rfl⟩ := verified
  refine ⟨c, opened, rfl, window, (documentDigest_eq_ok.mp hashed).1, purpose.2.2.2.2.1, ?_⟩
  simp only [verifyDocument, checked_ok]
  exact ⟨c, opened, order, purpose, by simp, digest, hashed, bound, rfl⟩

theorem verifyDocument_historical {expected : d.Body} {id : Id}
    (verified : E.verifyDocument d token trust expected now = .ok id) :
    E.verifyDocument d token trust expected none = .ok id := by
  obtain ⟨_, _, _, _, _, _, historical⟩ := verifyDocument_eq_ok verified
  exact historical

theorem verifyDocument_unique {expected expected' : d.Body} {now' : Option ℕ} {id id' : Id}
    (verified : E.verifyDocument d token trust expected now = .ok id)
    (verified' : E.verifyDocument d token other expected' now' = .ok id') : id = id' := by
  obtain ⟨c, opened, rfl, _⟩ := verifyDocument_eq_ok verified
  obtain ⟨c', opened', rfl, _⟩ := verifyDocument_eq_ok verified'
  rw [openToken_unique opened opened']

theorem verifyHistorical_eq_ok {expected : Request} :
    E.verifyHistorical token trust expected = .ok v ↔
      ∃ c, E.verifyCommon token trust expected = .ok c ∧
        ⟨c.certificateId, E.tokenDigest token⟩ = v := by
  simp only [verifyHistorical, run_ok]

theorem verifyIssuance_historical {expected : Request} {now : ℕ}
    (verified : E.verifyIssuance token trust expected now = .ok v) :
    E.verifyHistorical token trust expected = .ok v := by
  simp only [verifyIssuance, run_ok] at verified
  obtain ⟨c, opened, _, same⟩ := verified
  exact verifyHistorical_eq_ok.mpr ⟨c, opened, same⟩

theorem verifyCommon_open {expected : Request} {c : Claims Request}
    (verified : E.verifyCommon token trust expected = .ok c) :
    expected.Valid ∧ ∃ purpose, E.openToken .transition token trust expected purpose = .ok c := by
  simp only [verifyCommon, checked_ok] at verified
  obtain ⟨c', opened, _, _, _, digest, hashed, _, rfl⟩ := verified
  have valid : expected.validate = .ok () := (documentDigest_eq_ok (d := .transition).mp hashed).1
  exact ⟨Replication.ensure_eq_ok.mp valid, _, opened⟩

theorem verifyHistorical_valid {expected : Request}
    (verified : E.verifyHistorical token trust expected = .ok v) : expected.Valid := by
  obtain ⟨c, opened, _⟩ := verifyHistorical_eq_ok.mp verified
  exact (verifyCommon_open opened).1

theorem verifyHistorical_tokenDigest {expected : Request}
    (verified : E.verifyHistorical token trust expected = .ok v) :
    v.tokenDigest = E.tokenDigest token := by
  obtain ⟨c, _, rfl⟩ := verifyHistorical_eq_ok.mp verified
  rfl

theorem verifyHistorical_unique {expected expected' : Request} {v' : Verified}
    (verified : E.verifyHistorical token trust expected = .ok v)
    (verified' : E.verifyHistorical token other expected' = .ok v') : v = v' := by
  obtain ⟨c, opened, rfl⟩ := verifyHistorical_eq_ok.mp verified
  obtain ⟨c', opened', rfl⟩ := verifyHistorical_eq_ok.mp verified'
  obtain ⟨_, _, opened⟩ := verifyCommon_open opened
  obtain ⟨_, _, opened'⟩ := verifyCommon_open opened'
  rw [openToken_unique opened opened']

end Env

end TerrapiVault.Recovery
