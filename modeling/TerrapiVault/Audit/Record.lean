import TerrapiVault.Lib.Checked
import TerrapiVault.Lib.Json

/-! Audit events and the chained records that carry them, as the JSON lines of the audit
file. A line is read back by its own grammar, in any order of fields. -/
namespace TerrapiVault.Audit
open Json (Text)

/-- A string: octets that are well-formed UTF-8. -/
structure Str where
  bytes : Text
  wellFormed : Utf8.wellFormed bytes = true

inductive ActorKind where
  | user
  | apiToken
  | system
  | devBypass
deriving DecidableEq

inductive Outcome where
  | success
  | failure
deriving DecidableEq

structure Actor where
  label : Str
  kind : ActorKind
  id : Option Str
  tenant : Option Str

structure Target where
  kind : Str
  id : Option Str

structure AuditEvent where
  ts : Str
  schemaVersion : UInt8
  source : Str
  node : Str
  residencyGroup : Option Str
  actor : Actor
  action : Str
  target : Target
  outcome : Outcome
  requestId : Option Str

def ascii (s : String) : Text := s.toList.map fun c => UInt8.ofNat c.toNat

def ActorKind.name : ActorKind → Text
  | .user => ascii "user"
  | .apiToken => ascii "api_token"
  | .system => ascii "system"
  | .devBypass => ascii "dev_bypass"

def Outcome.name : Outcome → Text
  | .success => ascii "success"
  | .failure => ascii "failure"

def optional : Option Str → Json.Value
  | none => .null
  | some s => .text s.bytes

def Actor.json (a : Actor) : Json.Value :=
  .object (.cons (ascii "label") (.text a.label.bytes) (.cons (ascii "kind") (.text a.kind.name)
    (.cons (ascii "id") (optional a.id) (.cons (ascii "tenant") (optional a.tenant) .nil))))

def Target.json (t : Target) : Json.Value :=
  .object (.cons (ascii "kind") (.text t.kind.bytes) (.cons (ascii "id") (optional t.id) .nil))

def AuditEvent.json (e : AuditEvent) : Json.Value :=
  .object (.cons (ascii "ts") (.text e.ts.bytes)
    (.cons (ascii "schema_version") (.number e.schemaVersion.toNat)
    (.cons (ascii "source") (.text e.source.bytes) (.cons (ascii "node") (.text e.node.bytes)
    (.cons (ascii "residency_group") (optional e.residencyGroup)
    (.cons (ascii "actor") e.actor.json (.cons (ascii "action") (.text e.action.bytes)
    (.cons (ascii "target") e.target.json (.cons (ascii "outcome") (.text e.outcome.name)
    (.cons (ascii "request_id") (optional e.requestId) .nil))))))))))

/-- `serde_json::to_vec(event)`. -/
def AuditEvent.bytes (e : AuditEvent) : Text := e.json.encode

abbrev Digest : Type := Vector UInt8 32

def genesis : Digest := Vector.replicate 32 0

def toHex (bytes : List UInt8) : Text :=
  bytes.flatMap fun b => [Json.hexDigit (b.toNat / 16), Json.hexDigit (b.toNat % 16)]

/-- `u8::from_str_radix` of two characters, which takes a plus sign. -/
def hexPair (a b : UInt8) : Option UInt8 :=
  if a = 43 then (Json.hexValue b).map UInt8.ofNat
  else do
    let high ← Json.hexValue a
    let low ← Json.hexValue b
    some (UInt8.ofNat (16 * high + low))

def hexPairs : Text → Option (List UInt8)
  | a :: b :: rest => do
    let octet ← hexPair a b
    let more ← hexPairs rest
    some (octet :: more)
  | _ => some []

def fromHex32 (text : Text) : Option Digest :=
  if text.length ≠ 64 then none
  else do
    let octets ← hexPairs text
    if sized : octets.length = 32 then some ⟨octets.toArray, by simpa using sized⟩ else none

/-- What one append writes. -/
structure RecordOut where
  seq : ℕ
  prev : Digest
  hash : Digest
  event : AuditEvent

def RecordOut.members (r : RecordOut) : Json.Members :=
  .cons (ascii "seq") (.number r.seq) (.cons (ascii "prev") (.text (toHex r.prev.toList))
    (.cons (ascii "hash") (.text (toHex r.hash.toList)) (.cons (ascii "event") r.event.json .nil)))

def RecordOut.text (r : RecordOut) : Text := (Json.Value.object r.members).encode

structure RecordIn where
  seq : ℕ
  prev : Text
  hash : Text
  event : Text

/-- A string value as it stands. -/
def textOf : Text → Option Text
  | [] => none
  | b :: rest => if b = 34 then Json.unescape .plain rest.dropLast else none

def u64 (raw : Text) : Option ℕ := (Json.natural raw).filter (· < 2 ^ 64)

def RecordIn.ofParts (seq prev hash event : Text) : Option RecordIn := do
  let seq ← u64 seq
  let prev ← textOf prev
  let hash ← textOf hash
  some ⟨seq, prev, hash, event⟩

/-- A field that is there once. -/
def field (name : Text) (members : List (Text × Text)) : Option Text :=
  match members.filter fun m => m.1 = name with
  | [(_, value)] => some value
  | _ => none

def RecordIn.ofMembers (members : List (Text × Text)) : Option RecordIn := do
  let named ← members.mapM fun m => (Json.unescape .plain m.1).map fun key => (key, m.2)
  let seq ← field (ascii "seq") named
  let prev ← field (ascii "prev") named
  let hash ← field (ascii "hash") named
  let event ← field (ascii "event") named
  RecordIn.ofParts seq prev hash event

def RecordIn.ofElements : List Text → Option RecordIn
  | [seq, prev, hash, event] => RecordIn.ofParts seq prev hash event
  | _ => none

/-- `serde_json::from_str::<RecordIn>`: an object in any order, or the fields as an array. -/
def readRecord (text : Text) : Option RecordIn :=
  match Json.skipSpace text with
  | [] => none
  | b :: rest =>
    if b = 123 then do
      let (members, after) ← Json.objectBody (Json.skipValue text.length) rest
      if Json.skipSpace after = [] then RecordIn.ofMembers members else none
    else if b = 91 then do
      let (elements, after) ← Json.arrayBody (Json.skipValue text.length) rest
      if Json.skipSpace after = [] then RecordIn.ofElements elements else none
    else none

def RecordOut.read (r : RecordOut) : RecordIn :=
  ⟨r.seq, toHex r.prev.toList, toHex r.hash.toList, r.event.bytes⟩

section RoundTrip

theorem textOf_quoted (s : Text) : textOf (Json.quoted s) = some s := by
  rw [Json.quoted, textOf, if_pos rfl, List.dropLast_concat, Json.unescape_escaped]

theorem u64_decimal {n : ℕ} (small : n < 2 ^ 64) : u64 (Json.decimal n) = some n := by
  rw [u64, Json.natural_decimal, Option.filter_some, if_pos (by simpa using small)]

variable {r : RecordOut}

/-- The members with their keys read and their values as they stand. -/
def pairs : Json.Members → List (Text × Text)
  | .nil => []
  | .cons key value more => (key, value.encode) :: pairs more

theorem raw_named (ms : Json.Members) :
    ms.raw.mapM (fun m => (Json.unescape .plain m.1).map fun key => (key, m.2)) = some (pairs ms) := by
  match ms with
  | .nil => rfl
  | .cons key value more =>
    simp only [Json.Members.raw, List.mapM_cons, Json.unescape_escaped, Option.map_some,
      Option.bind_eq_bind, Option.bind_some, raw_named more, Option.pure_def, pairs]

theorem RecordIn.ofMembers_written (small : r.seq < 2 ^ 64) :
    RecordIn.ofMembers r.members.raw = some r.read := by
  have seq : field (ascii "seq") (pairs r.members) = some (Json.decimal r.seq) := rfl
  have prev : field (ascii "prev") (pairs r.members) = some (Json.quoted (toHex r.prev.toList)) := rfl
  have hash : field (ascii "hash") (pairs r.members) = some (Json.quoted (toHex r.hash.toList)) := rfl
  have event : field (ascii "event") (pairs r.members) = some r.event.json.encode := rfl
  rw [RecordIn.ofMembers, raw_named]
  simp only [Option.bind_eq_bind, Option.bind_some, seq, prev, hash, event, RecordIn.ofParts,
    u64_decimal small, textOf_quoted]
  rfl

theorem RecordOut.text_eq (r : RecordOut) : r.text = 123 :: r.members.encode := by
  rw [RecordOut.text, Json.Value.encode]

theorem readRecord_text (small : r.seq < 2 ^ 64) : readRecord r.text = some r.read := by
  have body : Json.objectBody (Json.skipValue r.text.length) r.members.encode =
      some (r.members.raw, []) := by
    have deep : r.members.depth ≤ r.text.length := by
      have inner := r.members.depth_le
      rw [RecordOut.text_eq, List.length_cons]
      omega
    have read : Json.objectBody (Json.skipValue r.text.length) (r.members.encode ++ []) =
        some (r.members.raw, []) := Json.objectBody_encode r.members deep
    rwa [List.append_nil] at read
  have solid : Json.skipSpace r.text = 123 :: r.members.encode := by
    rw [RecordOut.text_eq, Json.skipSpace_cons rfl]
  rw [readRecord, solid]
  simp only [if_true, body, Option.bind_eq_bind, Option.bind_some]
  exact (if_pos rfl).trans (RecordIn.ofMembers_written small)

theorem hexPair_hexDigit (b : UInt8) :
    hexPair (Json.hexDigit (b.toNat / 16)) (Json.hexDigit (b.toNat % 16)) = some b := by
  have bound := b.toNat_lt
  have high : Json.hexValue (Json.hexDigit (b.toNat / 16)) = some (b.toNat / 16) :=
    Json.hexValue_hexDigit (by omega)
  have low : Json.hexValue (Json.hexDigit (b.toNat % 16)) = some (b.toNat % 16) :=
    Json.hexValue_hexDigit (by omega)
  have unsigned : Json.hexDigit (b.toNat / 16) ≠ 43 := by
    intro plus
    rw [plus] at high
    cases high
  have whole : 16 * (b.toNat / 16) + b.toNat % 16 = b.toNat := Nat.div_add_mod _ _
  rw [hexPair, if_neg unsigned, high, low]
  simp only [Option.bind_eq_bind, Option.bind_some, whole, UInt8.ofNat_toNat]

theorem hexPairs_toHex (octets : List UInt8) : hexPairs (toHex octets) = some octets := by
  induction octets with
  | nil => rfl
  | cons b octets ih =>
    rw [toHex] at ih
    simp [toHex, hexPairs, hexPair_hexDigit, ih]

theorem toHex_length (octets : List UInt8) : (toHex octets).length = 2 * octets.length := by
  induction octets with
  | nil => rfl
  | cons b octets ih =>
    rw [toHex] at ih
    simp only [toHex, List.flatMap_cons, List.length_append, List.length_cons, ih, List.length_nil]
    omega

theorem fromHex32_toHex (d : Digest) : fromHex32 (toHex d.toList) = some d := by
  have sized : (toHex d.toList).length = 64 := by rw [toHex_length]; simp
  rw [fromHex32, if_neg (not_not.mpr sized), hexPairs_toHex]
  simp [Vector.toList]

end RoundTrip

theorem optional_wellFormed (s : Option Str) : (optional s).WellFormed := by
  cases s with
  | none => trivial
  | some s => exact s.wellFormed

theorem AuditEvent.json_wellFormed (e : AuditEvent) : e.json.WellFormed := by
  have kind : Utf8.wellFormed e.actor.kind.name = true := by cases e.actor.kind <;> decide
  have outcome : Utf8.wellFormed e.outcome.name = true := by cases e.outcome <;> decide
  refine ⟨by decide, e.ts.wellFormed, by decide, trivial, by decide, e.source.wellFormed, by decide,
    e.node.wellFormed, by decide, optional_wellFormed _, by decide, ?_, by decide,
    e.action.wellFormed, by decide, ?_, by decide, outcome, by decide, optional_wellFormed _, trivial⟩
  · exact ⟨by decide, e.actor.label.wellFormed, by decide, kind, by decide, optional_wellFormed _,
      by decide, optional_wellFormed _, trivial⟩
  · exact ⟨by decide, e.target.kind.wellFormed, by decide, optional_wellFormed _, trivial⟩

theorem toHex_ascii (octets : List UInt8) : Utf8.Ascii (toHex octets) := by
  intro c inside
  obtain ⟨b, _, there⟩ := List.mem_flatMap.mp inside
  have bound := b.toNat_lt
  have high := Json.hexDigit_plain (d := b.toNat / 16) (by omega)
  have low := Json.hexDigit_plain (d := b.toNat % 16) (by omega)
  simp only [List.mem_cons, List.not_mem_nil, or_false] at there
  obtain rfl | rfl := there
  · exact high.2
  · exact low.2

theorem RecordOut.text_wellFormed (r : RecordOut) : Utf8.wellFormed r.text = true := by
  refine Json.Value.encode_wellFormed (.object r.members) ?_
  exact ⟨by decide, trivial, by decide, Utf8.wellFormed_ascii (toHex_ascii _), by decide,
    Utf8.wellFormed_ascii (toHex_ascii _), by decide, r.event.json_wellFormed, trivial⟩

theorem RecordOut.text_plain (r : RecordOut) : ∀ c ∈ r.text, 32 ≤ c.toNat :=
  Json.Value.encode_plain (.object r.members)

theorem RecordOut.text_braces (r : RecordOut) : ∃ inner, r.text = 123 :: (inner ++ [125]) := by
  refine ⟨Json.quoted (ascii "seq") ++ 58 :: (Json.decimal r.seq ++ 44 ::
    (Json.quoted (ascii "prev") ++ 58 :: (Json.quoted (toHex r.prev.toList) ++ 44 ::
    (Json.quoted (ascii "hash") ++ 58 :: (Json.quoted (toHex r.hash.toList) ++ 44 ::
    (Json.quoted (ascii "event") ++ 58 :: r.event.json.encode)))))), ?_⟩
  rw [RecordOut.text_eq, RecordOut.members]
  simp [Json.Members.encode, Json.Value.encode]

end TerrapiVault.Audit
