import TerrapiVault.Lib.Joined
import TerrapiVault.Audit.Record

/-! The device signature on a sync request: its headers, the clock-skew window, the text
that is signed and the key under which a nonce is remembered. -/
namespace TerrapiVault.Sync

open Json (Text)
open Audit (Digest ascii toHex)

def maxSkewSecs : ℤ := 300

def maxNonceLen : ℕ := 128

/-- A refused request, always with status 401. -/
structure Refusal where
  code : String
  message : String
deriving DecidableEq

structure SignedHeaders where
  deviceId : Text
  ts : ℤ
  nonce : Text
  sig : Vector UInt8 64
deriving DecidableEq

/-- `HeaderValue::to_str`. -/
def toStr (value : Text) : Option Text :=
  if value.all fun b => (32 ≤ b.toNat && b.toNat < 127) || b = 9 then some value else none

def digits (text : Text) : Option ℤ :=
  if text ≠ [] && text.all Json.isDigit then
    some (text.foldl (fun n b => 10 * n + (b.toNat - 48)) 0 : ℕ)
  else none

/-- `i64::from_str`. -/
def parseI64 (text : Text) : Option ℤ :=
  (match text with
    | 45 :: rest => (digits rest).map fun n => -n
    | 43 :: rest => digits rest
    | _ => digits text).filter fun n => -2 ^ 63 ≤ n && n < 2 ^ 63

def orRefuse {α : Type} (value : Option α) (code message : String) : Except Refusal α :=
  value.elim (throw ⟨code, message⟩) pure

section Headers

variable (parseSigB64 : Text → Option (Vector UInt8 64))

def signedHeaders (header : String → Option Text) : Except Refusal SignedHeaders := do
  let getStr := fun name => (header name).bind toStr
  let deviceId ← orRefuse (getStr "x-device-id") "missing_device" "X-Device-Id required"
  let ts ← orRefuse ((getStr "x-sync-ts").bind parseI64) "bad_ts" "X-Sync-Ts required (unix secs)"
  let nonce ← orRefuse (getStr "x-sync-nonce") "missing_nonce" "X-Sync-Nonce required"
  Checked.ensure (nonce.length ≤ maxNonceLen) ⟨"bad_nonce", "X-Sync-Nonce is too long"⟩
  let sig ← orRefuse ((getStr "x-sync-sig").bind parseSigB64) "bad_sig"
    "X-Sync-Sig must be base64 ed25519 (64 bytes)"
  pure ⟨deviceId, ts, nonce, sig⟩

end Headers

/-- A result of `i64` arithmetic: out of range it panics in a build with overflow checks and
wraps in one without. -/
def i64 (checks : Bool) (n : ℤ) : Option ℤ :=
  if -2 ^ 63 ≤ n ∧ n < 2 ^ 63 then some n else if checks then none else some (n.bmod (2 ^ 64))

def stale : Refusal := ⟨"stale_request", "X-Sync-Ts outside the accepted clock-skew window"⟩

/-- `check_skew`; none is a panic. -/
def checkSkew (checks : Bool) (now ts : ℤ) : Option (Except Refusal Unit) := do
  let away ← i64 checks (now - ts)
  let distance ← i64 checks |away|
  some (Checked.ensure (distance ≤ maxSkewSecs) stale)

theorem orRefuse_eq_ok {α : Type} {value : Option α} {code message : String} {a : α} :
    orRefuse value code message = .ok a ↔ value = some a := by
  cases value <;> simp [orRefuse, throw, throwThe, MonadExceptOf.throw, pure, Except.pure]

section Parsed

variable {parseSigB64 : Text → Option (Vector UInt8 64)} {header : String → Option Text}
  {sh : SignedHeaders} (parsed : signedHeaders parseSigB64 header = .ok sh)
include parsed

theorem signedHeaders_ts : -2 ^ 63 ≤ sh.ts ∧ sh.ts < 2 ^ 63 := by
  simp only [signedHeaders, run_ok, orRefuse_eq_ok] at parsed
  obtain ⟨_, _, ts, found, _, _, _, _, _, rfl⟩ := parsed
  obtain ⟨_, _, read⟩ := Option.bind_eq_some_iff.mp found
  simpa using (Option.filter_eq_some_iff.mp read).2

theorem signedHeaders_plain : 10 ∉ sh.deviceId ∧ 10 ∉ sh.nonce := by
  have solid : ∀ {value text : Text}, toStr value = some text → 10 ∉ text := by
    intro value text read inside
    simp only [toStr, Option.ite_none_right_eq_some, List.all_eq_true, Option.some.injEq] at read
    obtain ⟨all, rfl⟩ := read
    exact absurd (all 10 inside) (by decide)
  simp only [signedHeaders, run_ok, orRefuse_eq_ok] at parsed
  obtain ⟨_, device, _, _, _, nonce, _, _, _, rfl⟩ := parsed
  obtain ⟨_, _, device⟩ := Option.bind_eq_some_iff.mp device
  obtain ⟨_, _, nonce⟩ := Option.bind_eq_some_iff.mp nonce
  exact ⟨solid device, solid nonce⟩

/-- The window is exact in both builds unless the timestamp is so far back that the
difference leaves the range. -/
theorem checkSkew_exact_iff {now : ℤ} (past : 0 ≤ now) (clock : now < 2 ^ 63) :
    (∀ checks, checkSkew checks now sh.ts =
      some (if |now - sh.ts| ≤ maxSkewSecs then .ok () else .error stale)) ↔
    now - sh.ts < 2 ^ 63 := by
  obtain ⟨low, high⟩ := signedHeaders_ts parsed
  constructor
  · intro exact'
    by_contra far
    have none : i64 true (now - sh.ts) = none := by
      rw [i64, if_neg fun within => far within.2, if_pos rfl]
    simpa [checkSkew, none] using exact' true
  · intro near checks
    have away : i64 checks (now - sh.ts) = some (now - sh.ts) := if_pos ⟨by omega, near⟩
    have size : |now - sh.ts| < 2 ^ 63 := abs_lt.mpr ⟨by omega, near⟩
    have distance : i64 checks |now - sh.ts| = some |now - sh.ts| :=
      if_pos ⟨by have := abs_nonneg (now - sh.ts); omega, size⟩
    rw [checkSkew, away, Option.bind_eq_bind, Option.bind_some, distance]
    rfl

end Parsed

section Canonical

variable (sha256 : Text → Digest)

def sha256Hex (body : Text) : Text := toHex (sha256 body).toList

/-- An `i64` as `{ts}` writes it. -/
def signed (n : ℤ) : Text :=
  if n < 0 then 45 :: Json.decimal n.natAbs else Json.decimal n.natAbs

def canonicalString (method pathAndQuery vestaId : Text) (ts : ℤ)
    (nonce bodySha256Hex : Text) : Text :=
  Joined.join 10 [ascii "v1", method, pathAndQuery, vestaId, signed ts, nonce, bodySha256Hex]

/-- The key under which the replay guard remembers a nonce. -/
def replayKey (deviceId nonce : Text) : Text := deviceId ++ 10 :: nonce

def isUuidV4Lower (s : Text) : Bool :=
  s.length = 36 && s.zipIdx.all fun (c, i) =>
    if i = 8 || i = 13 || i = 18 || i = 23 then c = 45
    else if i = 14 then c = 52
    else if i = 19 then c = 56 || c = 57 || c = 97 || c = 98
    else Json.isDigit c || (97 ≤ c.toNat && c.toNat ≤ 102)

/-- A request as `verify_signed` gets it. -/
structure SignedRequest where
  method : Text
  pathAndQuery : Text
  vestaId : Text
  sh : SignedHeaders
  body : Text
  token : 10 ∉ method
  uri : 10 ∉ pathAndQuery
  vault : isUuidV4Lower vestaId = true
  parsed : ∃ parseSigB64 header, signedHeaders parseSigB64 header = .ok sh

def SignedRequest.canonical (r : SignedRequest) : Text :=
  canonicalString r.method r.pathAndQuery r.vestaId r.sh.ts r.sh.nonce (sha256Hex sha256 r.body)

theorem isUuidV4Lower_plain {s : Text} (uuid : isUuidV4Lower s = true) : 10 ∉ s := by
  intro inside
  simp only [isUuidV4Lower, Bool.and_eq_true, List.all_eq_true] at uuid
  obtain ⟨i, small, here⟩ := List.getElem_of_mem inside
  have digit := uuid.2 (10, i) (List.mem_zipIdx_iff_getElem?.mpr (by simp [here, small]))
  dsimp only at digit
  split_ifs at digit <;> simp [Json.isDigit] at digit

theorem signed_plain (n : ℤ) : 10 ∉ signed n := by
  have digits : ∀ m, (10 : UInt8) ∉ Json.decimal m :=
    fun m inside => absurd (Json.decimal_plain inside).1 (by decide)
  unfold signed
  split_ifs
  · exact fun inside => (List.mem_cons.mp inside).elim (by decide) (digits _)
  · exact digits _

theorem decimal_inj {m n : ℕ} (same : Json.decimal m = Json.decimal n) : m = n :=
  Option.some.inj (Json.natural_decimal m ▸ same ▸ Json.natural_decimal n)

theorem signed_inj {m n : ℤ} (same : signed m = signed n) : m = n := by
  have minus : ∀ (rest : Text) (k : ℕ), Json.decimal k ≠ 45 :: rest := fun rest k same =>
    absurd (Json.decimal_digits k 45 (same ▸ List.mem_cons_self)) (by decide)
  unfold signed at same
  split_ifs at same
  · have := decimal_inj (List.cons.inj same).2
    omega
  · exact absurd same.symm (minus _ _)
  · exact absurd same (minus _ _)
  · have := decimal_inj same
    omega

theorem sha256Hex_plain (body : Text) : 10 ∉ sha256Hex sha256 body := by
  intro inside
  obtain ⟨b, _, digit⟩ := List.mem_flatMap.mp inside
  have hex : ∀ d, d < 16 → (10 : UInt8) ≠ Json.hexDigit d := by decide
  have := b.toNat_lt
  rcases List.mem_pair.mp digit with same | same
  · exact hex _ (by omega) same
  · exact hex _ (by omega) same

theorem SignedRequest.pieces_plain (r : SignedRequest) :
    ∀ piece ∈ [ascii "v1", r.method, r.pathAndQuery, r.vestaId, signed r.sh.ts, r.sh.nonce,
      sha256Hex sha256 r.body], 10 ∉ piece := by
  obtain ⟨_, _, parsed⟩ := r.parsed
  simp only [List.forall_mem_cons, List.not_mem_nil, false_implies, implies_true, and_true]
  exact ⟨by decide, r.token, r.uri, isUuidV4Lower_plain r.vault, signed_plain _,
    (signedHeaders_plain parsed).2, sha256Hex_plain sha256 _⟩

/-- Requests that sign the same text are the same request, and requests that share a replay
key are of one device with one nonce. -/
theorem canonical_identifies (a b : SignedRequest)
    (apart : sha256 a.body = sha256 b.body → a.body = b.body) :
    (a.canonical sha256 = b.canonical sha256 → a.method = b.method ∧
      a.pathAndQuery = b.pathAndQuery ∧ a.vestaId = b.vestaId ∧ a.sh.ts = b.sh.ts ∧
      a.sh.nonce = b.sh.nonce ∧ a.body = b.body) ∧
    (replayKey a.sh.deviceId a.sh.nonce = replayKey b.sh.deviceId b.sh.nonce →
      a.sh.deviceId = b.sh.deviceId ∧ a.sh.nonce = b.sh.nonce) := by
  constructor
  · intro same
    have pieces := Joined.join_inj (a.pieces_plain sha256) (b.pieces_plain sha256) rfl same
    simp only [List.cons.injEq, and_true, true_and] at pieces
    obtain ⟨method, path, vault, ts, nonce, hex⟩ := pieces
    have octets := Option.some.inj
      (Audit.hexPairs_toHex (sha256 a.body).toList ▸ congrArg Audit.hexPairs hex ▸
        Audit.hexPairs_toHex (sha256 b.body).toList)
    exact ⟨method, path, vault, signed_inj ts, nonce, apart (Vector.toList_inj.mp octets)⟩
  · obtain ⟨_, _, first⟩ := a.parsed
    obtain ⟨_, _, second⟩ := b.parsed
    exact Joined.cut (signedHeaders_plain first).1 (signedHeaders_plain second).1

end Canonical

namespace Sample

/-- 64 zero bytes. -/
def zeroSig : Text := ascii "AAAAAAAAAAAAAAAAAAAAAAAAAAAAAAAAAAAAAAAAAAAAAAAAAAAAAAAAAAAAAAAAAAAAAAAAAAAAAAAAAAAAAA=="

def noSig (_ : Text) : Option (Vector UInt8 64) := some (Vector.replicate 64 0)

def headers (ts : String) (name : String) : Option Text :=
  some (if name = "x-sync-sig" then zeroSig else ascii (if name = "x-sync-ts" then ts else "a"))

def signedAt (ts : ℤ) : SignedHeaders := ⟨ascii "a", ts, ascii "a", Vector.replicate 64 0⟩

theorem checkSkew_exact_recent :
    (∀ checks, checkSkew checks 1700000000 1699999700 =
      some (if |1700000000 - (1699999700 : ℤ)| ≤ maxSkewSecs then .ok () else .error stale)) ↔
    1700000000 - (1699999700 : ℤ) < 2 ^ 63 :=
  checkSkew_exact_iff
    (show signedHeaders noSig (headers "1699999700") = .ok (signedAt 1699999700) by decide)
    (by decide) (by decide)

def requestAt (ts : ℤ) (parsed : ∃ parseSigB64 header,
    signedHeaders parseSigB64 header = .ok (signedAt ts)) : SignedRequest where
  method := ascii "GET"
  pathAndQuery := ascii "/"
  vestaId := ascii "11111111-1111-4111-8111-111111111111"
  sh := signedAt ts
  body := []
  token := by decide
  uri := by decide
  vault := by decide
  parsed := parsed

theorem canonical_identifies_later :
    (requestAt 7 ⟨noSig, headers "7", by decide⟩).canonical (fun _ => Audit.genesis) ≠
      (requestAt (-8) ⟨noSig, headers "-8", by decide⟩).canonical (fun _ => Audit.genesis) :=
  fun same => absurd ((canonical_identifies _ (requestAt 7 _) (requestAt (-8) _) fun _ => rfl).1
    same).2.2.2.1 (by decide)

/-- A timestamp of 2^63 seconds ago is accepted, or stops the task. -/
theorem checkSkew_wraps :
    signedHeaders noSig (headers "-9223372035154775808") = .ok (signedAt (1700000000 - 2 ^ 63)) ∧
    checkSkew true 1700000000 (1700000000 - 2 ^ 63) = none ∧
    checkSkew false 1700000000 (1700000000 - 2 ^ 63) = some (.ok ()) := by
  decide

end Sample

end TerrapiVault.Sync
