import TerrapiVault.Audit.Record
import TerrapiVault.Lib.JsonPrefix

/-! The hash-chained audit file. An append writes one line; a write that fails, or a process
that dies in it, leaves a strict part of the line. The readers go by lines. -/
namespace TerrapiVault.Audit
open Json (Text)

/-- The complete lines of a file and what follows the last newline. -/
def split : Text → List Text × Text
  | [] => ([], [])
  | b :: rest =>
    if b = 10 then ([] :: (split rest).1, (split rest).2)
    else
      match (split rest).1 with
      | [] => ([], b :: (split rest).2)
      | line :: more => ((b :: line) :: more, (split rest).2)

/-- `BufRead::lines`: the last line may lack its newline. The carriage return it would take
off goes with the spaces that every caller trims. -/
def lines (file : Text) : List Text :=
  match split file with
  | (complete, []) => complete
  | (complete, rest) => complete ++ [rest]

/-- The characters `str::trim` removes. -/
def spaces : List Text :=
  [[9], [10], [11], [12], [13], [32], [194, 133], [194, 160], [225, 154, 128], [226, 128, 128],
    [226, 128, 129], [226, 128, 130], [226, 128, 131], [226, 128, 132], [226, 128, 133],
    [226, 128, 134], [226, 128, 135], [226, 128, 136], [226, 128, 137], [226, 128, 138],
    [226, 128, 168], [226, 128, 169], [226, 128, 175], [226, 129, 159], [227, 128, 128]]

def trimStart : ℕ → Text → Text
  | 0, text => text
  | fuel + 1, text =>
    match spaces.find? fun space => space.isPrefixOf text with
    | some space => trimStart fuel (text.drop space.length)
    | none => text

def trimEnd : ℕ → Text → Text
  | 0, text => text
  | fuel + 1, text =>
    match spaces.find? fun space => space.isSuffixOf text with
    | some space => trimEnd fuel (text.take (text.length - space.length))
    | none => text

def trim (text : Text) : Text := trimEnd text.length (trimStart text.length text)

/-- The last parseable record so far, and whether every line could be read. -/
def scanTip : List Text → Option (ℕ × Digest) → Option (ℕ × Digest) × Bool
  | [], tip => (tip, true)
  | line :: rest, tip =>
    if Utf8.wellFormed line then
      match readRecord (trim line) with
      | some r =>
        match fromHex32 r.hash with
        | some hash => scanTip rest (some (r.seq, hash))
        | none => scanTip rest tip
      | none => scanTip rest tip
    else (tip, false)

/-- `recover_tip`: next sequence number, last hash, and whether the file was clean. -/
def recoverTip : Option Text → ℕ × Digest × Bool
  | none => (0, genesis, true)
  | some file =>
    match scanTip (lines file) none with
    | (none, clean) => (0, genesis, clean)
    | (some (seq, hash), clean) => (seq + 1, hash, clean)

structure AuditTail where
  seq : ℕ
  event : Text

/-- Every JSON event is kept. `read_tail` drops those that `serde_json` cannot hold as a `Value`,
such as a lone surrogate. -/
def tailOf (since : ℕ) (line : Text) : Option AuditTail :=
  match readRecord (trim line) with
  | some r =>
    if r.seq < since then none
    else if Json.skipValue r.event.length r.event = some [] then some ⟨r.seq, r.event⟩
    else none
  | none => none

/-- `read_tail`: stops at the first line that is no UTF-8, and at the limit. -/
def readTail : Option Text → ℕ → ℕ → List AuditTail
  | none, _, _ => []
  | some file, since, limit =>
    (((lines file).takeWhile fun line => Utf8.wellFormed line).filterMap (tailOf since)).take
      (max limit 1)

section Sink

variable (sha256 : Text → Digest)

def beBytes (n : ℕ) : Text :=
  [56, 48, 40, 32, 24, 16, 8, 0].map fun shift => UInt8.ofNat (n / 2 ^ shift)

def recordHash (prev : Digest) (seq : ℕ) (event : Text) : Digest :=
  sha256 (prev.toList ++ beBytes seq ++ event)

/-- `ChainState`. -/
structure ChainState where
  seq : ℕ
  prev : Digest
  opened : Bool
  corrupt : Bool

/-- What becomes of a write: all of it, or a strict part before an error or the end of the
process. -/
inductive Write where
  | whole
  | torn (count : ℕ)
  | killed (count : ℕ)

inductive Event where
  | start (opens : Bool)
  | append (event : AuditEvent) (opens : Bool) (write : Write)
  | stop

/-- `accepted` is history: the records whose append returned Ok. -/
structure World where
  file : Option Text
  sink : Option ChainState
  accepted : List RecordOut

def World.empty : World := ⟨none, none, []⟩

/-- `open_append` creates the file. -/
def created (file : Option Text) (opened : Bool) : Option Text :=
  if opened then some (file.getD []) else file

/-- `HashChainSink::new`. -/
def newSink (file : Option Text) (opens : Bool) : ChainState :=
  match recoverTip file with
  | (seq, prev, clean) => ⟨seq, prev, opens, !clean⟩

def ChainState.record (s : ChainState) (event : AuditEvent) : RecordOut :=
  ⟨s.seq, s.prev, recordHash sha256 s.prev s.seq event.bytes, event⟩

def RecordOut.line (r : RecordOut) : Text := r.text ++ [10]

/-- `write_all` on the open handle, and what the sink makes of it. -/
def World.write (w : World) (s : ChainState) (r : RecordOut) : Write → World
  | .whole =>
    ⟨some (w.file.getD [] ++ r.line), some { s with seq := s.seq + 1, prev := r.hash },
      w.accepted ++ [r]⟩
  | .torn count =>
    ⟨some (w.file.getD [] ++ r.line.take count), some { s with opened := false }, w.accepted⟩
  | .killed count => ⟨some (w.file.getD [] ++ r.line.take count), none, w.accepted⟩

/-- `HashChainSink::append`. -/
def World.append (w : World) (s : ChainState) (event : AuditEvent) (opens : Bool) (write : Write) :
    World :=
  if s.corrupt then w
  else if s.opened || opens then
    w.write { s with opened := true } (s.record sha256 event) write
  else { w with sink := some { s with opened := false } }

def World.next (w : World) : Event → World
  | .start opens => ⟨created w.file opens, some (newSink w.file opens), w.accepted⟩
  | .append event opens write =>
    match w.sink with
    | some s => w.append sha256 s event opens write
    | none => w
  | .stop => { w with sink := none }

/-- A write that is not whole is a strict part of the line. -/
def Write.Strict (line : Text) : Write → Prop
  | .whole => True
  | .torn count => count < line.length
  | .killed count => count < line.length

def World.Possible (w : World) : Event → Prop
  | .append event _ write =>
    ∀ s ∈ w.sink, write.Strict (s.record sha256 event).line
  | _ => True

inductive Reaches (guard : World → Event → Prop) (start : World) : World → Prop
  | refl : Reaches guard start start
  | tail {w : World} (before : Reaches guard start w) (event : Event) (possible : w.Possible sha256 event)
      (meets : guard w event) : Reaches guard start (w.next sha256 event)

inductive VerifyError where
  | io
  | malformed (at' : ℕ)
  | seqGap (expected got : ℕ)
  | brokenChain (seq : ℕ)
  | tampered (seq : ℕ)
deriving DecidableEq

/-- One line of `verify`: the hash it leads to. -/
def verifyLine (prev : Digest) (expected : ℕ) (line : Text) : Except VerifyError Digest :=
  match readRecord line with
  | none => throw (.malformed expected)
  | some r => do
    if r.seq ≠ expected then throw (.seqGap expected r.seq)
    match fromHex32 r.prev with
    | none => throw (.malformed r.seq)
    | some recorded => do
      if recorded ≠ prev then throw (.brokenChain r.seq)
      match fromHex32 r.hash with
      | none => throw (.malformed r.seq)
      | some stored => do
        if recordHash sha256 prev r.seq r.event ≠ stored then throw (.tampered r.seq)
        pure stored

def verifyLines (prev : Digest) (expected : ℕ) : List Text → Except VerifyError ℕ
  | [] => pure expected
  | line :: rest =>
    if Utf8.wellFormed line then
      if trim line = [] then verifyLines prev expected rest
      else do
        let hash ← verifyLine sha256 prev expected (trim line)
        verifyLines hash (expected + 1) rest
    else throw .io

def verify : Option Text → Except VerifyError ℕ
  | none => throw .io
  | some file => verifyLines sha256 genesis 0 (lines file)

end Sink

theorem split_line {line : Text} (solid : 10 ∉ line) (rest : Text) :
    split (line ++ 10 :: rest) = (line :: (split rest).1, (split rest).2) := by
  induction line with
  | nil => simp [split]
  | cons b line ih =>
    have ne : b ≠ 10 := fun same => solid (same ▸ List.mem_cons_self)
    rw [List.cons_append, split, if_neg ne, ih fun inside => solid (List.mem_cons_of_mem _ inside)]

theorem split_solid {rest : Text} (solid : 10 ∉ rest) : split rest = ([], rest) := by
  induction rest with
  | nil => rfl
  | cons b rest ih =>
    have ne : b ≠ 10 := fun same => solid (same ▸ List.mem_cons_self)
    rw [split, if_neg ne, ih fun inside => solid (List.mem_cons_of_mem _ inside)]

theorem RecordOut.text_solid (r : RecordOut) : 10 ∉ r.text :=
  fun inside => absurd (r.text_plain 10 inside) (by decide)

theorem split_records (records : List RecordOut) {torn : Text} (solid : 10 ∉ torn) :
    split (records.flatMap RecordOut.line ++ torn) = (records.map RecordOut.text, torn) := by
  induction records with
  | nil => exact split_solid solid
  | cons r records ih =>
    have apart : (r :: records).flatMap RecordOut.line ++ torn =
        r.text ++ 10 :: (records.flatMap RecordOut.line ++ torn) := by
      simp [RecordOut.line]
    rw [apart, split_line r.text_solid, ih]
    rfl

theorem lines_records (records : List RecordOut) {torn : Text} (solid : 10 ∉ torn) :
    lines (records.flatMap RecordOut.line ++ torn) =
      records.map RecordOut.text ++ if torn = [] then [] else [torn] := by
  rw [lines, split_records records solid]
  cases torn with
  | nil => simp
  | cons b torn => rfl

theorem trimStart_brace (fuel : ℕ) (rest : Text) : trimStart fuel (123 :: rest) = 123 :: rest := by
  cases fuel with
  | zero => rfl
  | succ fuel =>
    have none : spaces.find? (fun space => space.isPrefixOf (123 :: rest)) = none := by
      simp [spaces, List.isPrefixOf]
    rw [trimStart, none]

theorem trimEnd_brace (fuel : ℕ) (rest : Text) : trimEnd fuel (rest ++ [125]) = rest ++ [125] := by
  cases fuel with
  | zero => rfl
  | succ fuel =>
    have none : spaces.find? (fun space => space.isSuffixOf (rest ++ [125])) = none := by
      simp [spaces, List.isSuffixOf, List.isPrefixOf]
    rw [trimEnd, none]

theorem trim_text (r : RecordOut) : trim r.text = r.text := by
  obtain ⟨inner, same⟩ := r.text_braces
  rw [trim, same, trimStart_brace, ← List.cons_append, trimEnd_brace]

theorem trimEnd_begins (fuel : ℕ) (text : Text) : trimEnd fuel text <+: text := by
  induction fuel generalizing text with
  | zero => exact List.prefix_rfl
  | succ fuel ih =>
    rw [trimEnd]
    split
    · exact (ih _).trans (List.take_prefix _ _)
    · exact List.prefix_rfl

theorem trim_begins {r : RecordOut} {torn : Text} (part : torn <+: r.text) : trim torn <+: r.text := by
  obtain ⟨inner, same⟩ := r.text_braces
  cases torn with
  | nil => exact List.nil_prefix
  | cons b torn =>
    obtain rfl : b = 123 := by
      rw [same] at part
      exact (List.cons_prefix_cons.mp part).1
    rw [trim, trimStart_brace]
    exact (trimEnd_begins _ _).trans part

/-- Only the whole of a record reads as a record. -/
theorem readRecord_part {r : RecordOut} {part : Text} (cut : part <+: r.text) {found : RecordIn}
    (read : readRecord part = some found) : part = r.text := by
  obtain ⟨rest, whole⟩ := cut
  rw [RecordOut.text_eq] at whole ⊢
  cases part with
  | nil => cases read
  | cons b part =>
    rw [List.cons_append] at whole
    obtain ⟨rfl, tail⟩ := List.cons.inj whole
    rw [readRecord, Json.skipSpace_cons rfl] at read
    simp only [if_true, Option.bind_eq_bind, Option.bind_eq_some_iff] at read
    obtain ⟨⟨members, after⟩, body, _⟩ := read
    have enough : (123 :: part).length ≤ part.length + 1 + r.members.depth := by simp
    have longer := Json.objectBody_more (Json.skipValue_more enough) (Json.skipValue_nil _) rest body
    have written : Json.objectBody (Json.skipValue (part.length + 1 + r.members.depth))
        (r.members.encode ++ []) = some (r.members.raw, []) :=
      Json.objectBody_encode r.members (by omega)
    rw [tail, ← List.append_nil r.members.encode, written] at longer
    have none := (Prod.mk.inj (Option.some.inj longer)).2
    obtain ⟨_, rfl⟩ := List.append_eq_nil_iff.mp none.symm
    rw [← tail, List.append_nil]

end TerrapiVault.Audit
