import TerrapiVault.Audit.Chain

/-! The shipper of the audit file. Each tick reads a bounded piece of the file from a
cursor, takes the complete lines of it and moves the cursor over what it delivered. -/
namespace TerrapiVault.Audit
open Json (Text)

def maxShipBytes : ℕ := 4 * 1024 * 1024

def maxShipItems : ℕ := 500

structure ShipItem where
  index : Text
  id : Text
  event : Text

/-- What a structure with named fields is read from. -/
inductive Shape where
  | object (named : List (Text × Text))
  | array (elements : List Text)

def readShape (text : Text) : Option Shape :=
  match Json.skipSpace text with
  | [] => none
  | b :: rest =>
    if b = 123 then do
      let (members, after) ← Json.objectBody (Json.skipValue text.length) rest
      let named ← members.mapM fun m => (Json.unescape .plain m.1).map fun key => (key, m.2)
      if Json.skipSpace after = [] then some (.object named) else none
    else if b = 91 then do
      let (elements, after) ← Json.arrayBody (Json.skipValue text.length) rest
      if Json.skipSpace after = [] then some (.array elements) else none
    else none

/-- `Rec` of `record_to_ship_item`. -/
def Shape.hashEvent : Shape → Option (Text × Text)
  | .object named => do
    let hash ← field (ascii "hash") named
    let event ← field (ascii "event") named
    some (← textOf hash, event)
  | .array [hash, event] => do some (← textOf hash, event)
  | .array _ => none

/-- `TsOnly` of `record_to_ship_item`. -/
def Shape.tsOnly : Shape → Option Text
  | .object named => do textOf (← field (ascii "ts") named)
  | .array [ts] => textOf ts
  | .array _ => none

/-- A string cannot be cut before an octet that continues a character. -/
def continues (b : UInt8) : Bool := 128 ≤ b.toNat && b.toNat < 192

/-- `index_for`; none where the cut after the month panics. -/
def indexFor (group ts : Text) : Option Text :=
  if 7 ≤ ts.length ∧ ts[4]? = some 45 then
    if (ts[7]?).any continues then none
    else some (ascii "audit-events-" ++ group ++ [45] ++ ts.take 4 ++ [46] ++ (ts.drop 5).take 2)
  else some (ascii "audit-events-" ++ group ++ [45] ++ ascii "unknown")

/-- `record_to_ship_item`; the outer none is a panic. -/
def recordToShipItem (group line : Text) : Option (Option ShipItem) :=
  match (readShape line).bind Shape.hashEvent with
  | none => some none
  | some (hash, event) =>
    match (readShape event).bind Shape.tsOnly with
    | none => some none
    | some ts => (indexFor group ts).map fun index => some ⟨index, hash, event⟩

/-- The loop of `collect_backlog` over complete lines. -/
def collect (group : Text) : List Text → List ShipItem → ℕ → Option (List ShipItem × ℕ)
  | [], items, consumed => some (items, consumed)
  | line :: rest, items, consumed =>
    if maxShipItems ≤ items.length then some (items, consumed)
    else if trim (line ++ [10]) = [] then collect group rest items (consumed + line.length + 1)
    else
      match recordToShipItem group (trim (line ++ [10])) with
      | none => none
      | some none => collect group rest items (consumed + line.length + 1)
      | some (some item) => collect group rest (items ++ [item]) (consumed + line.length + 1)

/-- `read_new_records`; the outer none is a panic. -/
def readNewRecords (group : Text) (file : Option Text) (from' : ℕ) :
    Option (Option (List ShipItem × ℕ)) :=
  match file with
  | none => some none
  | some bytes =>
    let from' := if from' > bytes.length then 0 else from'
    let complete := (split ((bytes.drop from').take maxShipBytes)).1
    if complete = [] then some none
    else if Utf8.wellFormed (complete.flatMap (· ++ [10])) then
      (collect group complete [] 0).map fun (items, consumed) => some (items, from' + consumed)
    else some none

/-- `delivered` is history: the items whose request was answered, in order. -/
structure Shipper where
  cursor : ℕ
  delivered : List ShipItem

/-- `ship_backlog`, where the bulk request is answered or not; none is a panic. -/
def Shipper.tick (s : Shipper) (group : Text) (file : Option Text) (answered : Bool) :
    Option Shipper :=
  match readNewRecords group file s.cursor with
  | none => none
  | some none => some s
  | some (some (items, offset)) =>
    if items = [] then some s
    else if answered then some ⟨offset, s.delivered ++ items⟩
    else some s

/-- Ticks whose requests are all answered. -/
def Shipper.ticks (group : Text) (file : Option Text) : ℕ → Shipper → Option Shipper
  | 0, s => some s
  | n + 1, s => (s.tick group file true).bind (Shipper.ticks group file n)

/-- A record the shipper can take: its line fits a read, its timestamp can be cut. -/
structure RecordOut.Shippable (r : RecordOut) : Prop where
  fits : r.line.length ≤ maxShipBytes
  dated : (r.event.ts.bytes[7]?).any continues = false

def RecordOut.shipItem (r : RecordOut) (group : Text) : ShipItem :=
  ⟨(indexFor group r.event.ts.bytes).getD [], toHex r.hash.toList, r.event.bytes⟩

theorem readShape_object (ms : Json.Members) :
    readShape (Json.Value.object ms).encode = some (.object (pairs ms)) := by
  have deep : ms.depth ≤ (Json.Value.object ms).encode.length := by
    have inner := ms.depth_le
    rw [Json.Value.encode, List.length_cons]
    omega
  have body : Json.objectBody (Json.skipValue (Json.Value.object ms).encode.length)
      (ms.encode ++ []) = some (ms.raw, []) := Json.objectBody_encode ms deep
  rw [List.append_nil] at body
  have solid : Json.skipSpace (Json.Value.object ms).encode = 123 :: ms.encode := by
    rw [Json.Value.encode, Json.skipSpace_cons rfl]
  rw [readShape, solid]
  simp only [if_true, body, Option.bind_eq_bind, Option.bind_some, raw_named]
  exact if_pos rfl

theorem hashEvent_text (r : RecordOut) :
    (readShape r.text).bind Shape.hashEvent = some (toHex r.hash.toList, r.event.bytes) := by
  have hash : field (ascii "hash") (pairs r.members) = some (Json.quoted (toHex r.hash.toList)) := rfl
  have event : field (ascii "event") (pairs r.members) = some r.event.bytes := rfl
  rw [RecordOut.text, readShape_object, Option.bind_some]
  simp only [Shape.hashEvent, hash, event, Option.bind_eq_bind, Option.bind_some, textOf_quoted]

theorem tsOnly_bytes (e : AuditEvent) :
    (readShape e.bytes).bind Shape.tsOnly = some e.ts.bytes := by
  have ts (ms : Json.Members) (object : e.json = .object ms) :
      field (ascii "ts") (pairs ms) = some (Json.quoted e.ts.bytes) := by
    obtain rfl := Json.Value.object.inj object
    rfl
  rw [AuditEvent.bytes, AuditEvent.json, readShape_object, Option.bind_some]
  simp only [Shape.tsOnly, ts _ rfl, Option.bind_eq_bind, Option.bind_some, textOf_quoted]

theorem indexFor_dated {group ts : Text} (dated : (ts[7]?).any continues = false) :
    indexFor group ts = some ((indexFor group ts).getD []) := by
  unfold indexFor
  split_ifs with month cut
  · rw [dated] at cut
    cases cut
  · rfl
  · rfl

theorem recordToShipItem_text {group : Text} {r : RecordOut} (ships : r.Shippable) :
    recordToShipItem group r.text = some (some (r.shipItem group)) := by
  rw [recordToShipItem, hashEvent_text]
  simp only [tsOnly_bytes]
  rw [indexFor_dated ships.dated]
  rfl

theorem trim_line (r : RecordOut) : trim (r.text ++ [10]) = r.text := by
  obtain ⟨inner, same⟩ := r.text_braces
  have newline : spaces.find? (fun space => space.isSuffixOf (123 :: (inner ++ [125]) ++ [10])) =
      some [10] := by
    simp [spaces, List.isSuffixOf, List.isPrefixOf]
  rw [trim, same, List.cons_append, trimStart_brace, ← List.cons_append, List.length_append]
  simp only [List.length_singleton, trimEnd, newline, List.length_append]
  rw [Nat.add_sub_cancel, List.take_left', ← List.cons_append, trimEnd_brace]
  simp

theorem text_ne_nil (r : RecordOut) : r.text ≠ [] := by
  rw [RecordOut.text_eq]
  exact List.cons_ne_nil _ _

theorem collect_records {group : Text} {records : List RecordOut}
    (ships : ∀ r ∈ records, r.Shippable) (items : List ShipItem) (consumed : ℕ) :
    collect group (records.map RecordOut.text) items consumed =
      some (items ++ (records.take (maxShipItems - items.length)).map (·.shipItem group),
        consumed + ((records.take (maxShipItems - items.length)).flatMap RecordOut.line).length) := by
  induction records generalizing items consumed with
  | nil => simp [collect]
  | cons r records ih =>
    rw [List.map_cons, collect]
    split_ifs with full blank
    · have none : maxShipItems - items.length = 0 := by omega
      simp [none]
    · rw [trim_line] at blank
      exact absurd blank (text_ne_nil r)
    · obtain ⟨left, same⟩ : ∃ left, maxShipItems - items.length = left + 1 :=
        ⟨maxShipItems - items.length - 1, by omega⟩
      have next : maxShipItems - (items ++ [r.shipItem group]).length = left := by
        simp only [List.length_append, List.length_singleton]
        omega
      simp only [trim_line, recordToShipItem_text (ships r List.mem_cons_self)]
      rw [ih (fun r inside => ships r (List.mem_cons_of_mem _ inside)), next, same]
      simp [RecordOut.line]
      omega

theorem take_records (records : List RecordOut) {torn : Text} (solid : 10 ∉ torn) (cap : ℕ) :
    ∃ count tail, count ≤ records.length ∧ 10 ∉ tail ∧
      (records.flatMap RecordOut.line ++ torn).take cap =
        (records.take count).flatMap RecordOut.line ++ tail ∧
      ∀ r ∈ records.head?, r.line.length ≤ cap → 0 < count := by
  induction records generalizing cap with
  | nil =>
    exact ⟨0, torn.take cap, le_rfl, fun inside => solid (List.mem_of_mem_take inside), rfl, nofun⟩
  | cons r records ih =>
    have apart : (r :: records).flatMap RecordOut.line ++ torn =
        r.line ++ (records.flatMap RecordOut.line ++ torn) := by simp
    by_cases whole : r.line.length ≤ cap
    · obtain ⟨count, tail, few, clean, same, _⟩ := ih (cap - r.line.length)
      refine ⟨count + 1, tail, by simpa using few, clean, ?_, fun _ _ _ => count.succ_pos⟩
      rw [apart, List.take_append, List.take_of_length_le whole, same]
      simp
    · refine ⟨0, r.text.take cap, Nat.zero_le _, ?_, ?_, fun first there fits => ?_⟩
      · exact fun inside => r.text_solid (List.mem_of_mem_take inside)
      · have short : cap ≤ r.text.length := by
          rw [RecordOut.line, List.length_append, List.length_singleton] at whole
          omega
        rw [apart, RecordOut.line, List.append_assoc, List.take_append_of_le_length short]
        rfl
      · obtain rfl : r = first := by simpa using there
        exact absurd fits whole

theorem records_wellFormed (records : List RecordOut) :
    Utf8.wellFormed ((records.map RecordOut.text).flatMap (· ++ [10])) = true := by
  induction records with
  | nil => rfl
  | cons r records ih =>
    rw [List.map_cons, List.flatMap_cons]
    exact Utf8.wellFormed_append (Utf8.wellFormed_append r.text_wellFormed rfl) ih

section Ticks

variable {group : Text} {records : List RecordOut} {torn : Text}

/-- The first `count` records have been delivered. -/
structure Shipper.Delivered (s : Shipper) (group : Text) (records : List RecordOut) (count : ℕ) :
    Prop where
  cursor : s.cursor = ((records.take count).flatMap RecordOut.line).length
  delivered : s.delivered = (records.take count).map (·.shipItem group)

variable (group) in
theorem readNewRecords_records (ships : ∀ r ∈ records, r.Shippable) (solid : 10 ∉ torn) (count : ℕ) :
    ∃ batch ≤ (records.drop count).length, (0 < (records.drop count).length → 0 < batch) ∧
      readNewRecords group (some (records.flatMap RecordOut.line ++ torn))
          ((records.take count).flatMap RecordOut.line).length =
        if batch = 0 then some none
        else some (some (((records.drop count).take batch).map (·.shipItem group),
          ((records.take count).flatMap RecordOut.line).length +
            (((records.drop count).take batch).flatMap RecordOut.line).length)) := by
  have parts : records.flatMap RecordOut.line ++ torn =
      (records.take count).flatMap RecordOut.line ++
        ((records.drop count).flatMap RecordOut.line ++ torn) := by
    rw [← List.append_assoc, ← List.flatMap_append, List.take_append_drop]
  have inside : ¬((records.take count).flatMap RecordOut.line).length >
      (records.flatMap RecordOut.line ++ torn).length := by
    rw [parts, List.length_append]
    omega
  obtain ⟨whole, tail, most, clean, piece, moves⟩ :=
    take_records (records.drop count) solid maxShipBytes
  have complete : (split (((records.flatMap RecordOut.line ++ torn).drop
      ((records.take count).flatMap RecordOut.line).length).take maxShipBytes)).1 =
        ((records.drop count).take whole).map RecordOut.text := by
    rw [parts, List.drop_left, piece, split_records _ clean]
  have taken : ((records.drop count).take whole).take maxShipItems =
      (records.drop count).take (min maxShipItems whole) := List.take_take
  have fit : ∀ r ∈ (records.drop count).take whole, r.Shippable := fun r there =>
    ships r (List.mem_of_mem_drop (List.mem_of_mem_take there))
  have positive : 0 < maxShipItems := by decide
  refine ⟨min maxShipItems whole, by omega, fun some' => ?_, ?_⟩
  · cases left : records.drop count with
    | nil =>
      rw [left] at some'
      exact absurd some' (lt_irrefl 0)
    | cons r more =>
      have first : r ∈ records.drop count := left ▸ List.mem_cons_self
      have one := moves r (by rw [left]; rfl) (ships r (List.mem_of_mem_drop first)).fits
      omega
  · simp only [readNewRecords, if_neg inside, complete, records_wellFormed, if_true,
      collect_records fit, List.length_nil, Nat.sub_zero, taken, List.nil_append, Nat.zero_add]
    by_cases none : whole = 0
    · simp [none]
    · have some' : ((records.drop count).take whole).map RecordOut.text ≠ [] := by
        intro empty
        have sized := congrArg List.length empty
        rw [List.length_map, List.length_take, List.length_nil] at sized
        omega
      rw [if_neg some', if_neg (by omega)]
      rfl

/-- An answered tick delivers the next records, at least one if there is one. -/
theorem Shipper.tick_ships (ships : ∀ r ∈ records, r.Shippable) (solid : 10 ∉ torn) {s : Shipper}
    {count : ℕ} (before : s.Delivered group records count) :
    ∃ s' count', s.tick group (some (records.flatMap RecordOut.line ++ torn)) true = some s' ∧
      s'.Delivered group records count' ∧ count ≤ count' ∧
      (count < records.length → count < count') := by
  obtain ⟨batch, most, moves, read⟩ := readNewRecords_records group ships solid count
  rw [List.length_drop] at most moves
  rw [Shipper.tick, before.cursor, read]
  have next : records.take (count + batch) = records.take count ++ (records.drop count).take batch :=
    List.take_add
  by_cases none : batch = 0
  · refine ⟨s, count, by simp [none], before, le_rfl, fun more => ?_⟩
    have one := moves (by omega)
    omega
  · have some' : ((records.drop count).take batch).map (·.shipItem group) ≠ [] := by
      intro empty
      have sized := congrArg List.length empty
      rw [List.length_map, List.length_take, List.length_drop, List.length_nil] at sized
      omega
    refine ⟨⟨((records.take (count + batch)).flatMap RecordOut.line).length,
      (records.take (count + batch)).map (·.shipItem group)⟩, count + batch, ?_, ⟨rfl, rfl⟩, by omega,
      by omega⟩
    simp only [if_neg none, if_neg some', if_true, next, List.flatMap_append, List.length_append,
      List.map_append, before.delivered]

theorem Shipper.ticks_ship (ships : ∀ r ∈ records, r.Shippable) (solid : 10 ∉ torn) (n : ℕ) :
    ∀ {s : Shipper} {count : ℕ}, s.Delivered group records count → records.length ≤ count + n →
      ∃ s', Shipper.ticks group (some (records.flatMap RecordOut.line ++ torn)) n s = some s' ∧
        s'.delivered = records.map (·.shipItem group) := by
  induction n with
  | zero =>
    intro s count before enough
    refine ⟨s, rfl, ?_⟩
    rw [before.delivered, List.take_of_length_le (by omega)]
  | succ n ih =>
    intro s count before enough
    obtain ⟨next, count', ticked, after, kept, moves⟩ := Shipper.tick_ships ships solid before
    have reach : records.length ≤ count' + n := by
      by_cases more : count < records.length
      · have one := moves more
        omega
      · omega
    obtain ⟨last, done, all⟩ := ih after reach
    exact ⟨last, by rw [Shipper.ticks, ticked, Option.bind_some, done], all⟩

end Ticks

end TerrapiVault.Audit
