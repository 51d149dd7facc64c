import TerrapiVault.Audit.Ship

/-! Runs of the audit sink through failed writes, crashes and restarts. A record that was
accepted stays a line of its own, as long as nothing is appended behind a torn one. -/
namespace TerrapiVault.Audit
open Json (Text)

variable {sha256 : Text → Digest}

def tipHash (records : List RecordOut) : Digest := (records.getLast?.map (·.hash)).getD genesis

variable {records : List RecordOut} {r : RecordOut}

theorem getElem?_snoc {last : RecordOut} {i : ℕ} (there : (records ++ [last])[i]? = some r) :
    records[i]? = some r ∨ i = records.length ∧ r = last := by
  obtain old | new := Nat.lt_or_ge i records.length
  · rw [List.getElem?_append_left old] at there
    exact .inl there
  · rw [List.getElem?_append_right new, List.getElem?_singleton] at there
    split_ifs at there with final
    exact .inr ⟨by omega, (Option.some.inj there).symm⟩

/-- Consecutive numbers, each record on the hash of the one before it. -/
structure Chained (sha256 : Text → Digest) (records : List RecordOut) : Prop where
  seq : ∀ i (r : RecordOut), records[i]? = some r → r.seq = i
  prev : ∀ i (r : RecordOut), records[i]? = some r → r.prev = tipHash (records.take i)
  hash : ∀ r : RecordOut, r ∈ records → r.hash = recordHash sha256 r.prev r.seq r.event.bytes

namespace Chained

theorem nil : Chained sha256 [] := ⟨nofun, nofun, nofun⟩

theorem snoc (chained : Chained sha256 records) (event : AuditEvent) :
    Chained sha256 (records ++ [⟨records.length, tipHash records,
      recordHash sha256 (tipHash records) records.length event.bytes, event⟩]) := by
  refine ⟨fun i r there => ?_, fun i r there => ?_, fun r there => ?_⟩
  · obtain old | ⟨final, rfl⟩ := getElem?_snoc there
    · exact chained.seq i r old
    · exact final.symm
  · obtain old | ⟨rfl, rfl⟩ := getElem?_snoc there
    · have within : i < records.length := (List.getElem?_eq_some_iff.mp old).1
      rw [List.take_append_of_le_length within.le]
      exact chained.prev i r old
    · rw [List.take_left]
  · obtain old | new := List.mem_append.mp there
    · exact chained.hash r old
    · obtain rfl := List.mem_singleton.mp new
      rfl

theorem seq_lt (chained : Chained sha256 records) (inside : r ∈ records) :
    r.seq < records.length := by
  obtain ⟨i, there⟩ := List.mem_iff_getElem?.mp inside
  rw [chained.seq i r there]
  exact (List.getElem?_eq_some_iff.mp there).1

end Chained

theorem scanTip_records (small : ∀ r ∈ records, r.seq < 2 ^ 64) (rest : List Text)
    (tip : Option (ℕ × Digest)) :
    scanTip (records.map RecordOut.text ++ rest) tip =
      scanTip rest ((records.getLast?.map fun r => (r.seq, r.hash)).or tip) := by
  induction records generalizing tip with
  | nil => rfl
  | cons r records ih =>
    rw [List.map_cons, List.cons_append, scanTip, if_pos r.text_wellFormed, trim_text,
      readRecord_text (small r List.mem_cons_self)]
    simp only [RecordOut.read, fromHex32_toHex]
    rw [ih fun r inside => small r (List.mem_cons_of_mem _ inside), List.getLast?_cons]
    cases records.getLast? <;> rfl

theorem Chained.count (chained : Chained sha256 records) :
    (records.getLast?.map (·.seq + 1)).getD 0 = records.length := by
  cases last : records.getLast? with
  | none =>
    rw [List.getLast?_eq_none_iff.mp last]
    rfl
  | some r =>
    rw [List.getLast?_eq_getElem?] at last
    have number := chained.seq _ r last
    have within := (List.getElem?_eq_some_iff.mp last).1
    rw [Option.map_some, Option.getD_some]
    omega

theorem recoverTip_some (file : Text) :
    recoverTip (some file) = (((scanTip (lines file) none).1.map (·.1 + 1)).getD 0,
      ((scanTip (lines file) none).1.map (·.2)).getD genesis, (scanTip (lines file) none).2) := by
  rw [recoverTip]
  split <;> rename_i scanned <;> rw [scanned] <;> rfl

/-- A torn record moves the tip only if it is all there. -/
theorem scanTip_part {torn : Text} (part : torn <+: r.text) (small : r.seq < 2 ^ 64)
    (tip : Option (ℕ × Digest)) :
    (scanTip [torn] tip).1 = tip ∨ (scanTip [torn] tip).1 = some (r.seq, r.hash) := by
  rw [scanTip]
  split_ifs with whole
  · cases read : readRecord (trim torn) with
    | none => exact .inl rfl
    | some found =>
      have all := readRecord_part (trim_begins part) read
      rw [all, readRecord_text small] at read
      obtain rfl := Option.some.inj read
      simp only [RecordOut.read, fromHex32_toHex]
      exact .inr rfl
  · exact .inl rfl

theorem tailOf_text (small : r.seq < 2 ^ 64) (since : ℕ) :
    tailOf since r.text = if since ≤ r.seq then some ⟨r.seq, r.event.bytes⟩ else none := by
  have event : Json.skipValue r.event.bytes.length (r.event.bytes ++ []) = some [] :=
    Json.skipValue_encode r.event.json r.event.json.depth_le nofun
  rw [List.append_nil] at event
  rw [tailOf, trim_text, readRecord_text small]
  simp only [RecordOut.read, event, if_true]
  by_cases old : r.seq < since
  · rw [if_pos old, if_neg (by omega)]
  · rw [if_neg old, if_pos (by omega)]

def RecordOut.tail (r : RecordOut) : AuditTail := ⟨r.seq, r.event.bytes⟩

theorem readTail_records (small : ∀ r ∈ records, r.seq < 2 ^ 64) {torn : Text} (solid : 10 ∉ torn)
    (since limit : ℕ) :
    (((records.filter fun r => since ≤ r.seq).map RecordOut.tail).take (max limit 1)) <+:
      readTail (some (records.flatMap RecordOut.line ++ torn)) since limit := by
  have whole : ∀ line ∈ records.map RecordOut.text, Utf8.wellFormed line = true := by
    intro line there
    obtain ⟨r, _, rfl⟩ := List.mem_map.mp there
    exact r.text_wellFormed
  have seen : (records.map RecordOut.text).filterMap (tailOf since) =
      (records.filter fun r => since ≤ r.seq).map RecordOut.tail := by
    rw [List.filterMap_map, ← List.filterMap_eq_map, ← List.filterMap_eq_filter, List.filterMap_filterMap]
    refine List.filterMap_congr fun r inside => ?_
    rw [Function.comp_apply, tailOf_text (small r inside)]
    by_cases new : since ≤ r.seq <;> simp [new, RecordOut.tail, Option.guard]
  rw [readTail, lines_records records solid, List.takeWhile_append_of_pos whole,
    List.filterMap_append, seen, List.take_append]
  exact List.prefix_append _ _

theorem verifyLine_text (small : r.seq < 2 ^ 64)
    (hash : r.hash = recordHash sha256 r.prev r.seq r.event.bytes) :
    verifyLine sha256 r.prev r.seq r.text = .ok r.hash := by
  rw [verifyLine, readRecord_text small]
  simp only [RecordOut.read, fromHex32_toHex, ← hash, ne_eq, not_true_eq_false, if_false]
  rfl

theorem Chained.verifyLines (chained : Chained sha256 records) (small : records.length ≤ 2 ^ 64)
    (left : ℕ) : ∀ count, records.length = count + left →
      Audit.verifyLines sha256 (tipHash (records.take count)) count
        ((records.drop count).map RecordOut.text) = .ok records.length := by
  induction left with
  | zero =>
    intro count all
    rw [List.drop_eq_nil_of_le (by omega), all]
    rfl
  | succ left ih =>
    intro count all
    have within : count < records.length := by omega
    have there : records[count]? = some records[count] := List.getElem?_eq_getElem within
    have number := chained.seq count _ there
    have linked := chained.prev count _ there
    have inside : records[count] ∈ records := List.getElem_mem within
    have line := verifyLine_text (by omega) (chained.hash _ inside)
    have next : tipHash (records.take (count + 1)) = records[count].hash := by
      rw [tipHash, List.take_add_one, there, Option.toList_some, List.getLast?_concat]
      rfl
    rw [number, linked] at line
    rw [List.drop_eq_getElem_cons within, List.map_cons, Audit.verifyLines,
      if_pos (RecordOut.text_wellFormed _), trim_text, if_neg (text_ne_nil _), line]
    have rest := ih (count + 1) (by omega)
    rw [next] at rest
    exact rest

section Invariant

/-- The file is absent, empty, or ends with a newline. -/
def World.Clean (w : World) : Prop := ∀ b ∈ (w.file.getD []).getLast?, b = 10

/-- Every append is made behind a whole record, and the numbers last. -/
def Careful (w : World) : Event → Prop
  | .append _ _ _ => w.Clean ∧ w.accepted.length + 1 < 2 ^ 64
  | _ => True

/-- The accepted records and then a part of the one after them. -/
structure Written (sha256 : Text → Digest) (w : World) (torn : Text) : Prop where
  file : w.file.getD [] = w.accepted.flatMap RecordOut.line ++ torn
  part : torn ≠ [] → ∃ r : RecordOut, r.seq = w.accepted.length ∧ torn <+: r.text
  chained : Chained sha256 w.accepted
  room : w.accepted.length < 2 ^ 64
  sink : torn = [] → ∀ s ∈ w.sink, s.seq = w.accepted.length ∧ s.prev = tipHash w.accepted

namespace Written

variable {w : World} {torn : Text}

section

variable (written : Written sha256 w torn)
include written

theorem solid : 10 ∉ torn := by
  intro inside
  obtain ⟨r, _, part⟩ := written.part (List.ne_nil_of_mem inside)
  exact r.text_solid (part.subset inside)

theorem small : ∀ r ∈ w.accepted, r.seq < 2 ^ 64 :=
  fun _ inside => (written.chained.seq_lt inside).trans written.room

theorem whole (clean : w.Clean) : torn = [] := by
  by_contra some'
  have last : (w.file.getD []).getLast? = torn.getLast? := by
    rw [written.file, List.getLast?_append_of_ne_nil _ some']
  have newline := clean (torn.getLast some') (by rw [last, List.getLast?_eq_getLast_of_ne_nil some']; rfl)
  exact written.solid (newline ▸ List.getLast_mem some')

theorem absent (none : w.file = none) : w.accepted = [] := by
  have file := written.file
  rw [none, Option.getD_none] at file
  have records := (List.append_eq_nil_iff.mp file.symm).1
  cases accepted : w.accepted with
  | nil => rfl
  | cons r more =>
    rw [accepted] at records
    simp [RecordOut.line] at records

/-- A restart resumes behind the last accepted record, or later. -/
theorem resumes :
    w.accepted.length ≤ (recoverTip w.file).1 ∧
      (torn = [] → (recoverTip w.file).1 = w.accepted.length ∧
        (recoverTip w.file).2.1 = tipHash w.accepted) := by
  cases file : w.file with
  | none =>
    rw [written.absent file]
    exact ⟨le_rfl, fun _ => ⟨rfl, rfl⟩⟩
  | some bytes =>
    obtain rfl : bytes = w.accepted.flatMap RecordOut.line ++ torn := by
      rw [← written.file, file]
      rfl
    have count := written.chained.count
    rw [recoverTip_some, lines_records _ written.solid, scanTip_records written.small, Option.or_none]
    by_cases none : torn = []
    · rw [if_pos none]
      simp only [scanTip, Option.map_map]
      exact ⟨count.ge, fun _ => ⟨count, rfl⟩⟩
    · obtain ⟨r, number, part⟩ := written.part none
      rw [if_neg none]
      refine ⟨?_, fun empty => absurd empty none⟩
      obtain same | moved := scanTip_part part (number ▸ written.room)
        (w.accepted.getLast?.map fun r => (r.seq, r.hash))
      · rw [same, Option.map_map]
        exact count.ge
      · rw [moved, Option.map_some, Option.getD_some]
        omega

end

theorem empty : Written sha256 World.empty [] :=
  ⟨rfl, fun some' => absurd rfl some', .nil, by decide, nofun⟩

theorem start (written : Written sha256 w torn) (opens : Bool) :
    Written sha256 (w.next sha256 (.start opens)) torn := by
  have file : (created w.file opens).getD [] = w.file.getD [] := by
    unfold created
    split <;> simp
  refine { written with file := file.trans written.file, sink := ?_ }
  intro none s there
  obtain rfl := Option.some.inj there
  exact written.resumes.2 none

/-- A write that stops short leaves a part of the record without its newline. -/
theorem cut (written : Written sha256 w []) (number : r.seq = w.accepted.length) {count : ℕ}
    (strict : count < r.line.length) {sink : Option ChainState}
    (kept : ∀ s ∈ sink, s.seq = w.accepted.length ∧ s.prev = tipHash w.accepted) :
    Written sha256 ⟨some (w.file.getD [] ++ r.line.take count), sink, w.accepted⟩
      (r.text.take count) := by
  have short : count ≤ r.text.length := by
    rw [RecordOut.line, List.length_append, List.length_singleton] at strict
    omega
  refine ⟨?_, fun _ => ⟨r, number, List.take_prefix _ _⟩, written.chained, written.room, fun _ => kept⟩
  have file := written.file
  rw [List.append_nil] at file
  rw [Option.getD_some, file, RecordOut.line, List.take_append_of_le_length short]

theorem write (written : Written sha256 w []) {s : ChainState}
    (number : s.seq = w.accepted.length) (tip : s.prev = tipHash w.accepted)
    (room : w.accepted.length + 1 < 2 ^ 64) (event : AuditEvent) (write : Write)
    (strict : write.Strict (s.record sha256 event).line) :
    ∃ torn', (write = .whole → torn' = []) ∧
      Written sha256 (w.write s (s.record sha256 event) write) torn' := by
  cases write with
  | whole =>
    refine ⟨[], fun _ => rfl, ?_, fun some' => absurd rfl some', ?_, ?_, ?_⟩
    · have file := written.file
      rw [List.append_nil] at file
      simp [World.write, file]
    · have grown := written.chained.snoc event
      rw [← number, ← tip] at grown
      exact grown
    · simpa [World.write] using room
    · intro _ s' there
      obtain rfl := Option.some.inj there
      simp [World.write, number, tipHash]
  | torn count =>
    refine ⟨_, nofun, written.cut number strict fun s' there => ?_⟩
    obtain rfl := Option.some.inj there
    exact ⟨number, tip⟩
  | killed count => exact ⟨_, nofun, written.cut number strict nofun⟩

theorem append (written : Written sha256 w []) {event : AuditEvent} {opens : Bool} {write : Write}
    (possible : w.Possible sha256 (.append event opens write))
    (room : w.accepted.length + 1 < 2 ^ 64) :
    ∃ torn', (write = .whole → torn' = []) ∧
      Written sha256 (w.next sha256 (.append event opens write)) torn' := by
  rw [World.next]
  cases sink : w.sink with
  | none => exact ⟨[], fun _ => rfl, written⟩
  | some s =>
    obtain ⟨number, tip⟩ := written.sink rfl s sink
    simp only [World.append]
    split_ifs with corrupt opened
    · exact ⟨[], fun _ => rfl, written⟩
    · exact written.write (s := { s with opened := true }) number tip room event write (possible s sink)
    · refine ⟨[], fun _ => rfl, written.file, written.part, written.chained, written.room,
        fun _ s' there => ?_⟩
      obtain rfl := Option.some.inj there
      exact ⟨number, tip⟩

theorem next (written : Written sha256 w torn) {event : Event} (possible : w.Possible sha256 event)
    (careful : Careful w event) : ∃ torn', Written sha256 (w.next sha256 event) torn' := by
  cases event with
  | start opens => exact ⟨torn, written.start opens⟩
  | append event opens write =>
    obtain rfl := written.whole careful.1
    obtain ⟨torn', _, after⟩ := written.append possible careful.2
    exact ⟨torn', after⟩
  | stop => exact ⟨torn, written.file, written.part, written.chained, written.room, fun _ => nofun⟩

theorem reached (reached : Reaches sha256 Careful World.empty w) : ∃ torn, Written sha256 w torn := by
  induction reached with
  | refl => exact ⟨[], empty⟩
  | tail _ event possible careful ih =>
    obtain ⟨torn, written⟩ := ih
    exact written.next possible careful

end Written

end Invariant

section Durability

/-- What the accepted records are worth. -/
structure Durable (sha256 : Text → Digest) (w : World) : Prop where
  lines : (split (w.file.getD [])).1 = w.accepted.map RecordOut.text
  parses : ∀ r ∈ w.accepted, Utf8.wellFormed r.text = true ∧ readRecord (trim r.text) = some r.read
  consecutive : ∀ i (r : RecordOut), w.accepted[i]? = some r → r.seq = i
  linked : ∀ i (r next : RecordOut), w.accepted[i]? = some r → w.accepted[i + 1]? = some next →
    next.prev = r.hash
  tail : ∀ since limit, (((w.accepted.filter fun r => since ≤ r.seq).map RecordOut.tail).take
    (max limit 1)) <+: readTail w.file since limit
  ships : ∀ group, (∀ r ∈ w.accepted, r.Shippable) → ∀ (s : Shipper) count ticks,
    s.Delivered group w.accepted count → w.accepted.length ≤ count + ticks →
      ∃ s', Shipper.ticks group w.file ticks s = some s' ∧
        s'.delivered = w.accepted.map (·.shipItem group)
  restart : ∀ opens, ∀ r ∈ w.accepted, r.seq < (newSink w.file opens).seq
  verifies : ∀ file ∈ w.file, w.Clean → verify sha256 (some file) = .ok w.accepted.length

theorem Shipper.ticks_none (group : Text) (n : ℕ) (s : Shipper) :
    Shipper.ticks group none n s = some s := by
  induction n with
  | zero => rfl
  | succ n ih => exact ih

namespace Written

variable {w : World} {torn : Text}

variable (written : Written sha256 w torn)
include written

theorem some_eq {file : Text} (there : w.file = some file) :
    file = w.accepted.flatMap RecordOut.line ++ torn := by
  rw [← written.file, there]
  rfl

theorem tail (since limit : ℕ) :
    (((w.accepted.filter fun r => since ≤ r.seq).map RecordOut.tail).take (max limit 1)) <+:
      readTail w.file since limit := by
  cases there : w.file with
  | none => simp [written.absent there]
  | some file =>
    rw [written.some_eq there]
    exact readTail_records written.small written.solid since limit

theorem ships {group : Text} (fit : ∀ r ∈ w.accepted, r.Shippable) {s : Shipper} {count : ℕ}
    (ticks : ℕ) (before : s.Delivered group w.accepted count)
    (enough : w.accepted.length ≤ count + ticks) :
    ∃ s', Shipper.ticks group w.file ticks s = some s' ∧
      s'.delivered = w.accepted.map (·.shipItem group) := by
  cases there : w.file with
  | none =>
    refine ⟨s, Shipper.ticks_none group ticks s, ?_⟩
    rw [before.delivered, written.absent there]
    simp
  | some file =>
    rw [written.some_eq there]
    exact Shipper.ticks_ship fit written.solid ticks before enough

theorem verifies {file : Text} (there : w.file = some file) (none : torn = []) :
    verify sha256 (some file) = .ok w.accepted.length := by
  subst none
  rw [written.some_eq there, verify, lines_records _ written.solid, if_pos rfl, List.append_nil]
  exact written.chained.verifyLines written.room.le w.accepted.length 0 (by omega)

theorem linked {i : ℕ} {next : RecordOut} (here : w.accepted[i]? = some r)
    (after : w.accepted[i + 1]? = some next) : next.prev = r.hash := by
  rw [written.chained.prev (i + 1) next after, tipHash, List.take_add_one, here, Option.toList_some,
    List.getLast?_concat]
  rfl

theorem durable : Durable sha256 w where
  lines := by rw [written.file, split_records _ written.solid]
  parses := fun r inside =>
    ⟨r.text_wellFormed, by rw [trim_text, readRecord_text (written.small r inside)]⟩
  consecutive := written.chained.seq
  linked := fun _ _ _ => written.linked
  tail := written.tail
  ships := fun _ fit _ _ ticks => written.ships fit ticks
  restart := fun _ _ inside => (written.chained.seq_lt inside).trans_le written.resumes.1
  verifies := fun _ there clean => written.verifies there (written.whole clean)

end Written

theorem World.accepted_next (w : World) (event : Event) :
    w.accepted <+: (w.next sha256 event).accepted := by
  cases event with
  | start opens => exact List.prefix_rfl
  | stop => exact List.prefix_rfl
  | append event opens write =>
    rw [World.next]
    cases w.sink with
    | none => exact List.prefix_rfl
    | some s =>
      simp only [World.append]
      split_ifs
      · exact List.prefix_rfl
      · cases write with
        | whole => exact List.prefix_append _ _
        | torn count => exact List.prefix_rfl
        | killed count => exact List.prefix_rfl
      · exact List.prefix_rfl

theorem Reaches.accepted {guard : World → Event → Prop} {w w' : World}
    (run : Reaches sha256 guard w w') : w.accepted <+: w'.accepted := by
  induction run with
  | refl => exact List.prefix_rfl
  | tail _ event _ _ ih => exact ih.trans (World.accepted_next _ event)

theorem Reaches.trans {guard : World → Event → Prop} {w₁ w₂ w₃ : World}
    (first : Reaches sha256 guard w₁ w₂) (second : Reaches sha256 guard w₂ w₃) :
    Reaches sha256 guard w₁ w₃ := by
  induction second with
  | refl => exact first
  | tail _ event possible meets ih => exact .tail ih event possible meets

/-- In a run whose appends all find the file whole, accepted records stay and are found. -/
theorem accepted_durable {w w' : World} (before : Reaches sha256 Careful World.empty w)
    (later : Reaches sha256 Careful w w') : Durable sha256 w' ∧ w.accepted <+: w'.accepted := by
  obtain ⟨torn, written⟩ := Written.reached (before.trans later)
  exact ⟨written.durable, later.accepted⟩

def sampleEvent : AuditEvent where
  ts := ⟨ascii "2026-05-26T10:00:00.000Z", by decide⟩
  schemaVersion := 1
  source := ⟨ascii "vault", by decide⟩
  node := ⟨ascii "vault-eu-1", by decide⟩
  residencyGroup := none
  actor := ⟨⟨ascii "alice", by decide⟩, .user, none, none⟩
  action := ⟨ascii "dek.issue", by decide⟩
  target := ⟨⟨ascii "vault", by decide⟩, none⟩
  outcome := .success
  requestId := none

def sampleSha : Text → Digest := fun _ => genesis

def sampleRecord (seq : ℕ) : RecordOut := ⟨seq, genesis, genesis, sampleEvent⟩

theorem line_length (r : RecordOut) : 1 < r.line.length := by
  rw [RecordOut.line, RecordOut.text_eq]
  simp

theorem line_getLast (r : RecordOut) : r.line.getLast? = some 10 := List.getLast?_concat

theorem started (guard : World → Event → Prop) (meets : guard World.empty (.start true)) :
    Reaches sampleSha guard World.empty ⟨some [], some ⟨0, genesis, true, false⟩, []⟩ :=
  .tail .refl (.start true) trivial meets

/-- A record is accepted and the process dies in the middle of the next write. -/
theorem accepted_durable_killed :
    Durable sampleSha ⟨some ((sampleRecord 0).line ++ (sampleRecord 1).line.take 1), none,
      [sampleRecord 0]⟩ ∧ [sampleRecord 0] <+: [sampleRecord 0] := by
  have accepted : Reaches sampleSha Careful World.empty
      ⟨some (sampleRecord 0).line, some ⟨1, genesis, true, false⟩, [sampleRecord 0]⟩ :=
    .tail (started Careful trivial) (.append sampleEvent true .whole) (fun _ _ => trivial)
      ⟨nofun, by decide⟩
  refine accepted_durable accepted (.tail .refl (.append sampleEvent true (.killed 1)) ?_ ⟨?_, ?_⟩)
  · intro s there
    obtain rfl := Option.some.inj there
    exact line_length _
  · intro b last
    rw [Option.getD_some, line_getLast] at last
    exact (Option.some.inj last).symm
  · decide

theorem readRecord_doubled (r : RecordOut) : readRecord (123 :: r.text) = none := by
  rw [readRecord, Json.skipSpace_cons rfl, RecordOut.text_eq]
  simp only [if_true, Json.objectBody]
  rfl

theorem trim_doubled (r : RecordOut) : trim (123 :: r.text) = 123 :: r.text := by
  obtain ⟨inner, same⟩ := r.text_braces
  rw [trim, trimStart_brace, same, ← List.cons_append, ← List.cons_append, trimEnd_brace]

theorem lines_doubled (r : RecordOut) : lines (123 :: r.line) = [123 :: r.text] := by
  have solid : 10 ∉ 123 :: r.text := by
    rw [List.mem_cons]
    exact fun inside => inside.elim (by decide) r.text_solid
  rw [RecordOut.line, ← List.cons_append, lines, split_line solid]
  rfl

theorem doubled_wellFormed (r : RecordOut) : Utf8.wellFormed (123 :: r.text) = true :=
  Json.wellFormed_cons (by decide) r.text_wellFormed

/-- A write fails after one octet and the next append is accepted: its line is no record, the
readers do not see it, and a restart begins again at its number. -/
theorem torn_append_loses_event :
    ∃ w, Reaches sampleSha (fun _ _ => True) World.empty w ∧ w.accepted = [sampleRecord 0] ∧
      (∀ line ∈ lines (w.file.getD []), readRecord (trim line) = none) ∧
      readTail w.file 0 1 = [] ∧ (newSink w.file true).seq = 0 := by
  have torn : Reaches sampleSha (fun _ _ => True) World.empty
      ⟨some ((sampleRecord 0).line.take 1), some ⟨0, genesis, false, false⟩, []⟩ := by
    refine .tail (started _ trivial) (.append sampleEvent true (.torn 1)) ?_ trivial
    intro s there
    obtain rfl := Option.some.inj there
    exact line_length _
  refine ⟨⟨some (123 :: (sampleRecord 0).line), some ⟨1, genesis, true, false⟩, [sampleRecord 0]⟩,
    .tail torn (.append sampleEvent true .whole) (fun _ _ => trivial) trivial, rfl, ?_, ?_, ?_⟩
  · intro line there
    rw [Option.getD_some, lines_doubled] at there
    rw [List.mem_singleton.mp there, trim_doubled, readRecord_doubled]
  · rw [readTail, lines_doubled, List.takeWhile_cons_of_pos (doubled_wellFormed _)]
    simp [tailOf, trim_doubled, readRecord_doubled]
  · simp [newSink, recoverTip_some, lines_doubled, scanTip, doubled_wellFormed, trim_doubled,
      readRecord_doubled]

end Durability

end TerrapiVault.Audit
