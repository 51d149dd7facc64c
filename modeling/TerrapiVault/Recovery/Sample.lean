import TerrapiVault.Recovery.Successor

/-! An environment that stores a value as itself. A digest or a length of what may be any
value is the same for all of them; a token's digest is its length, and a signature is 64
zeros. The payload of `n` letters carries the `n`-th document of its kind, so everything
here can be evaluated and a family of tokens is as long as it has to be. -/
namespace TerrapiVault.Recovery.Sample

open Replication (Result)

/-- Two bytes of the number, then zeros. -/
def mark (n : ℕ) : Id :=
  ⟨⟨UInt8.ofNat n :: UInt8.ofNat (n / 256) :: List.replicate 30 0⟩, rfl⟩

theorem mark_inj {n m : ℕ} (hn : n < 65536) (hm : m < 65536) (same : mark n = mark m) : n = m := by
  have lists := congrArg (fun id => id.toArray.toList) same
  simp only [mark, List.cons.injEq, and_true] at lists
  have low := congrArg UInt8.toNat lists.1
  have high := congrArg UInt8.toNat lists.2
  simp only [UInt8.toNat_ofNat'] at low high
  omega

theorem mark_ne_zero {n : ℕ} (positive : 0 < n) (small : n < 65536) : mark n ≠ zeroId := by
  have zero : zeroId = mark 0 := by decide
  rw [zero]
  exact fun same => positive.ne' (mark_inj small (by decide) same)

def profile : Profile := ⟨"issuer", "audience", Document.transition.tokenType⟩

def trusted : Trust := ⟨profile, [("key", [])], 10⟩

def cut (n : ℕ) : Checkpoint := ⟨n, mark 1⟩

def scope : JournalScope where
  install := "install"
  region := "region"
  profile := profile
  scope := mark 1
  schema := mark 1
  membership := mark 1
  sourceAnchor := cut 0
  authorityId := mark 1
  initialRevision := 1

def participant (n : ℕ) (i : Fin 2) : Participant where
  member := mark (i + 1)
  generation := mark (i + 1)
  oldBase := if n ≤ 1 then none else some (cut (n - 1))
  target := cut n
  plan := mark 1
  publication := mark 1

def heading (format : ℕ) (id membership : Id) (n : ℕ) : Heading :=
  ⟨format, id, mark 1, n, "install", "region", mark 1, mark 1, membership⟩

def request (n : ℕ) : Request where
  toHeading := heading 1 (mark n) (mark 1) n
  sourceAnchor := cut 0
  participants := participant n

/-- It claims that the request before it was never decided. -/
def cancellation (n : ℕ) : MaintenanceAbort where
  toHeading := heading 2 (mark 1) (mark 1) n
  abortedRequest := mark 1
  abortedRequestId := mark (max 1 (n - 1))
  abortedRevision := n
  decided := false
  sourceAnchor := cut 0

/-- The loss of the second participant after the first transition, superseded again and
again. -/
def loss (n : ℕ) : LossRequest where
  toHeading := heading 2 (mark n) (mark 1) n
  sourceCertificate := mark 1
  sourceTokenDigest := mark 5
  sourceCut := cut 1
  lostMember := mark 2
  lostGeneration := mark 2
  survivor := participant 1 0
  survivorCut := cut 1
  survivorPublication := mark 1
  replacementMembership := mark (n + 1)
  replacementMember := mark (n + 1)
  replacementGeneration := mark (n + 1)
  fencingRef := mark 1
  sourceKind := some .completed
  abandonedRequest := some (mark 1)
  supersedes := if n ≤ 2 then none else some ⟨mark 1, mark (n + 3), mark 1, mark 1⟩

/-- The successor of the loss before it. -/
def successor (n : ℕ) : LossSuccessorRequest where
  toHeading := heading 2 (mark n) (mark n) n
  sourceCertificate := mark 1
  sourceTokenDigest := mark 5
  sourceCut := cut 1
  parentLossCertificate := mark 1
  parentLossTokenDigest := mark (n + 3)
  survivorCut := cut 1
  survivorPublication := mark 1
  participants i := if i = 0 then participant 1 0
    else ⟨mark n, mark n, some (cut 1), cut 1, mark 1, mark 1⟩
  survivorIndex := some 0

def successorAbort (n : ℕ) : LossSuccessorAbort where
  toHeading := heading 2 (mark n) (mark n) n
  parentLossCertificate := mark 1
  parentLossTokenDigest := mark (n + 3)
  successorId := mark n
  successorCertificate := mark 1
  successorTokenDigest := mark (n + 4)
  fencingRef := mark 1

def body : (d : Document) → ℕ → d.Body
  | .transition => request
  | .abort => cancellation
  | .loss => loss
  | .successor => successor
  | .successorAbort => successorAbort

def letter : Document → Char
  | .transition => 't'
  | .abort => 'a'
  | .loss => 'l'
  | .successor => 's'
  | .successorAbort => 'x'

def headerType (bytes : List UInt8) : String :=
  if bytes = [116] then Document.transition.tokenType
  else if bytes = [97] then Document.abort.tokenType
  else if bytes = [108] then Document.loss.tokenType
  else if bytes = [115] then Document.successor.tokenType
  else Document.successorAbort.tokenType

/-- The letter "z" stands for the 64 bytes of a signature. -/
def env : Env fun α => α where
  encode := id
  decode := some
  bytes _ := 1
  characters _ := 1
  sha256 _ := mark 1
  tokenDigest text := mark text.length
  fromBase64 text := some <|
    if text = "z" then List.replicate 64 0 else text.toList.map fun c => UInt8.ofNat c.toNat
  toBase64 bytes :=
    if bytes = List.replicate 64 0 then "z"
    else String.ofList (bytes.map fun b => Char.ofNat b.toNat)
  header bytes := some ⟨"ES256", "key", headerType bytes⟩
  claims d payload := some
    ⟨1, "issuer", "audience", d.action, mark 1, 0, 0, 10, body d payload.length, mark 1⟩
  signed _ _ signature := signature = List.replicate 64 0
  decode_encode _ := rfl
  characters_le_bytes _ := le_rfl

/-- The environment with other documents. -/
def carrying (body : (d : Document) → ℕ → d.Body) : Env fun α => α := { env with
  claims := fun d payload => some
    ⟨1, "issuer", "audience", d.action, mark 1, 0, 0, 10, body d payload.length, mark 1⟩ }

def token (d : Document) (n : ℕ) : String :=
  String.ofList (letter d :: '.' :: List.replicate n 'p' ++ ['.', 'z'])

def policy : Policy := permissive

def lossPolicy : LossPolicy where
  continuityAndFencing _ _ _ := .ok ()
  survivorPrepared _ _ := .ok ()
  maintenanceRollbackAuthorized _ _ _ := .ok ()
  maintenanceFinishForwardAuthorized _ _ _ := .ok ()
  lossSuccessorApplied _ _ _ _ := .ok ()
  lossSuccessorContinuity _ _ _ := .ok ()
  successorAbortAuthorized _ _ _ _ := .ok ()
  supersededSuccessorAborted _ _ _ := .ok ()

theorem toOption_eq_some {α : Type} {r : Result α} {a : α} : r.toOption = some a ↔ r = .ok a := by
  cases r <;> simp [Except.toOption]

theorem ok_get {α : Type} {r : Result α} (h : r.toOption.isSome) : r = .ok (r.toOption.get h) :=
  toOption_eq_some.mp (Option.some_get h).symm

theorem ok_getD {α : Type} {r : Result α} {other : α} (h : r.toOption.isSome) :
    r = .ok (r.toOption.getD other) := by
  obtain ⟨a, done⟩ := Option.isSome_iff_exists.mp h
  rw [toOption_eq_some.mp done]
  rfl

theorem splitDots_plain {part : List Char} (plain : '.' ∉ part) : splitDots part = [part] := by
  induction part with
  | nil => rfl
  | cons c part ih =>
    rw [List.mem_cons, not_or] at plain
    simp [splitDots, Ne.symm plain.1, ih plain.2]

theorem splitDots_append {part : List Char} (rest : List Char) (plain : '.' ∉ part) :
    splitDots (part ++ '.' :: rest) = part :: splitDots rest := by
  induction part with
  | nil => rfl
  | cons c part ih =>
    rw [List.mem_cons, not_or] at plain
    simp [splitDots, Ne.symm plain.1, ih plain.2]

variable (d : Document) {n : ℕ}

def payload (n : ℕ) : String := String.ofList (List.replicate n 'p')

theorem segments_token : segments (token d n) = [String.ofList [letter d], payload n, "z"] := by
  have plain : '.' ∉ [letter d] := by cases d <;> decide
  have body : '.' ∉ List.replicate n 'p' := fun mem => absurd (List.eq_of_mem_replicate mem) (by decide)
  have split : splitDots ([letter d] ++ '.' :: (List.replicate n 'p' ++ '.' :: ['z'])) =
      [[letter d], List.replicate n 'p', ['z']] := by
    rw [splitDots_append _ plain, splitDots_append _ body, splitDots_plain (by decide)]
  have whole := congrArg (List.map String.ofList) split
  simpa [segments, token, payload] using whole

theorem tokenDigest_token : env.tokenDigest (token d n) = mark (n + 4) := by
  have length : (token d n).length = n + 4 := by
    rw [token, String.length_ofList]
    simp
  exact congrArg mark length

theorem payload_size : (payload n).utf8ByteSize = n := by
  induction n with
  | zero => rfl
  | succ n ih =>
    rw [payload, List.replicate_succ, String.ofList_cons, String.utf8ByteSize_append]
    rw [payload] at ih
    rw [ih, String.utf8ByteSize_singleton]
    have one : 'p'.utf8Size = 1 := rfl
    omega

theorem token_size : (token d n).utf8ByteSize = n + 4 := by
  have one : (String.singleton (letter d)).utf8ByteSize = 1 := by
    rw [String.utf8ByteSize_singleton]
    cases d <;> rfl
  have split : token d n = String.singleton (letter d) ++ "." ++ payload n ++ ".z" := by
    simp [token, payload, String.ext_iff]
  rw [split]
  simp only [String.utf8ByteSize_append, payload_size, one]
  have dot : ".".utf8ByteSize = 1 := by decide
  have tail : ".z".utf8ByteSize = 2 := by decide
  omega

theorem decodeSegment_letter :
    env.decodeSegment (String.ofList [letter d]) = .ok [UInt8.ofNat (letter d).toNat] := by
  cases d <;> decide +kernel

theorem decodeSegment_payload (positive : 0 < n) :
    env.decodeSegment (payload n) = .ok (List.replicate n 112) := by
  obtain ⟨m, rfl⟩ : ∃ m, n = m + 1 := ⟨n - 1, by omega⟩
  have other : payload (m + 1) ≠ "z" := by
    intro same
    have lists := congrArg String.toList same
    rw [payload, String.toList_ofList, List.replicate_succ] at lists
    exact absurd (List.cons.inj lists).1 (by decide)
  have letters : (List.replicate (m + 1) (112 : UInt8)).map (fun b => Char.ofNat b.toNat) =
      List.replicate (m + 1) 'p' := by
    rw [List.map_replicate]
    rfl
  have bytes : env.fromBase64 (payload (m + 1)) = some (List.replicate (m + 1) 112) := by
    simp only [env, if_neg other]
    rw [payload, String.toList_ofList, List.map_replicate]
    rfl
  have back : env.toBase64 (List.replicate (m + 1) 112) = payload (m + 1) := by
    have fresh : List.replicate (m + 1) (112 : UInt8) ≠ List.replicate 64 0 := by
      intro same
      rw [List.replicate_succ, show 64 = 63 + 1 from rfl, List.replicate_succ] at same
      exact absurd (List.cons.inj same).1 (by decide)
    simp only [env, if_neg fresh, letters, payload]
  have nonempty : payload (m + 1) ≠ "" := by
    intro same
    have lists := congrArg String.toList same
    rw [payload, String.toList_ofList, List.replicate_succ] at lists
    cases lists
  simp only [Env.decodeSegment, checked_ok, require_eq_ok]
  exact ⟨_, bytes, ⟨nonempty, back⟩, rfl⟩

def claimed (n : ℕ) : Claims d.Body :=
  ⟨1, "issuer", "audience", d.action, mark 1, 0, 0, 10, body d n, mark 1⟩

theorem openToken_token (positive : 0 < n) (small : n < 60000)
    (valid : d.validate (body d n) = .ok ()) {purpose : Header → Bool}
    (meant : purpose ⟨"ES256", "key", d.tokenType⟩) :
    env.openToken d (token d n) trusted (body d n) purpose = .ok (claimed d n) := by
  have size := token_size d (n := n)
  have kind : headerType [UInt8.ofNat (letter d).toNat] = d.tokenType := by
    cases d <;> decide +kernel
  have shape : (String.ofList [letter d]).utf8ByteSize ≤ 1024 := by cases d <;> decide +kernel
  have signature : env.decodeSegment "z" = .ok (List.replicate 64 0) := by decide +kernel
  simp only [Env.openToken, checked_ok, require_eq_ok, segments_token]
  refine ⟨valid, by decide +kernel, ?_, _, rfl, _, rfl, _, rfl, ⟨by simp, shape⟩, _,
    decodeSegment_letter d, _, rfl, kind ▸ meant, _, rfl, by simp [trusted], _,
    signature, by simp, by simp [env], _, decodeSegment_payload positive, ?_⟩
  · rw [size, maxToken]
    omega
  · simp [env, claimed]

theorem verifyDocument_token (positive : 0 < n) (small : n < 60000)
    (valid : d.validate (body d n) = .ok ()) {now : Option ℕ} (early : ∀ t ∈ now, t < 10) :
    env.verifyDocument d (token d n) trusted (body d n) now = .ok (mark 1) := by
  have opened : env.openToken d (token d n) trusted (body d n) (fun header =>
      header.alg = "ES256" ∧ header.typ = d.tokenType ∧ header.kid ≠ "") = .ok (claimed d n) :=
    openToken_token d positive small valid (by simp)
  simp only [Env.verifyDocument, checked_ok]
  refine ⟨_, opened, by simp [claimed], ⟨rfl, rfl, rfl, rfl, ?_⟩, ?_, _,
    Env.documentDigest_eq_ok.mpr ⟨valid, rfl⟩, ⟨rfl, rfl⟩, rfl⟩
  · simp only [claimed]
    decide +kernel
  · exact fun t mem => ⟨Nat.zero_le t, early t mem⟩

end TerrapiVault.Recovery.Sample
