import TerrapiVault.Audit.Runs

/-! The hash of its last record determines every event of a verified audit file. The hashed
octets are 32 of the hash before, 8 of the number, and the event as it stands in the line. -/
namespace TerrapiVault.Audit
open Json (Text)

/-- The records of a file, in order. -/
def recorded (file : Text) : List RecordIn :=
  (lines file).filterMap fun line => readRecord (trim line)

def events (file : Text) : List Text := (recorded file).map (·.event)

/-- The hash field of the last record. -/
def tip (file : Text) : Option Text := (recorded file).getLast?.map (·.hash)

/-- What is hashed for a record. -/
def RecordIn.hashed (r : RecordIn) : Text :=
  ((fromHex32 r.prev).getD genesis).toList ++ beBytes r.seq ++ r.event

/-- Every append is written whole, and the numbers last. -/
def Whole (w : World) : Event → Prop
  | .append _ _ write => write = .whole ∧ w.accepted.length + 1 < 2 ^ 64
  | _ => True

/-- Each record has its number and stands on the hash before it. -/
def Links (sha256 : Text → Digest) : Digest → ℕ → List RecordIn → Prop
  | _, _, [] => True
  | prev, seq, r :: rest => r.seq = seq ∧ r.seq < 2 ^ 64 ∧ fromHex32 r.prev = some prev ∧
      fromHex32 r.hash = some (sha256 r.hashed) ∧ Links sha256 (sha256 r.hashed) (seq + 1) rest

variable {sha256 : Text → Digest} {prev prev' : Digest} {seq n m : ℕ} {r r' : RecordIn}
  {rs rs' : List RecordIn} {f g : Text}

theorem beBytes_inj {a b : ℕ} (small : a < 2 ^ 64) (small' : b < 2 ^ 64)
    (same : beBytes a = beBytes b) : a = b := by
  simp only [beBytes, List.map_cons, List.map_nil, List.cons.injEq, and_true,
    ← UInt8.toNat_inj, UInt8.toNat_ofNat', Nat.reducePow] at same
  omega

theorem hashed_inj (small : r.seq < 2 ^ 64) (small' : r'.seq < 2 ^ 64)
    (same : r.hashed = r'.hashed) :
    (fromHex32 r.prev).getD genesis = (fromHex32 r'.prev).getD genesis ∧ r.seq = r'.seq ∧
      r.event = r'.event := by
  obtain ⟨front, event⟩ := List.append_inj same (by simp [beBytes])
  obtain ⟨before, number⟩ := List.append_inj front (by simp)
  exact ⟨Vector.toList_inj.mp before, beBytes_inj small small' number, event⟩

theorem readRecord_lt {text : Text} (read : readRecord text = some r) : r.seq < 2 ^ 64 := by
  have parts {seq prev hash event : Text} (read : RecordIn.ofParts seq prev hash event = some r) :
      r.seq < 2 ^ 64 := by
    simp only [RecordIn.ofParts, u64, Option.bind_eq_bind, Option.bind_eq_some_iff,
      Option.filter_eq_some_iff, decide_eq_true_eq] at read
    obtain ⟨_, ⟨_, small⟩, _, _, _, _, made⟩ := read
    exact Option.some.inj made ▸ small
  rw [readRecord] at read
  split at read
  · cases read
  · split_ifs at read
    · simp only [Option.bind_eq_bind, Option.bind_eq_some_iff] at read
      obtain ⟨⟨members, after⟩, _, read⟩ := read
      split_ifs at read
      simp only [RecordIn.ofMembers, Option.bind_eq_bind, Option.bind_eq_some_iff] at read
      obtain ⟨_, _, _, _, _, _, _, _, _, _, read⟩ := read
      exact parts read
    · simp only [Option.bind_eq_bind, Option.bind_eq_some_iff] at read
      obtain ⟨⟨elements, after⟩, _, read⟩ := read
      split_ifs at read
      unfold RecordIn.ofElements at read
      split at read
      · exact parts read
      · cases read

theorem verifyLine_links {line : Text} {hash : Digest}
    (ok : verifyLine sha256 prev seq line = .ok hash) :
    ∃ r, readRecord line = some r ∧ hash = sha256 r.hashed ∧ r.seq = seq ∧ r.seq < 2 ^ 64 ∧
      fromHex32 r.prev = some prev ∧ fromHex32 r.hash = some hash := by
  rw [verifyLine] at ok
  split at ok
  · cases ok
  rename_i r read
  split_ifs at ok with other
  · cases ok
  split at ok
  · cases ok
  rename_i recorded before
  split_ifs at ok with broken
  · cases ok
  split at ok
  · cases ok
  rename_i stored hash
  split_ifs at ok with tampered
  · cases ok
  obtain rfl := Except.ok.inj ok
  obtain rfl := not_not.mp broken
  have hashed : sha256 r.hashed = stored := by
    rw [RecordIn.hashed, before]
    exact not_not.mp tampered
  exact ⟨r, read, hashed.symm, not_not.mp other, readRecord_lt read, before, hash⟩

theorem verifyLines_links {ls : List Text} (ok : verifyLines sha256 prev seq ls = .ok n) :
    Links sha256 prev seq (ls.filterMap fun line => readRecord (trim line)) := by
  induction ls generalizing prev seq with
  | nil => trivial
  | cons line ls ih =>
    rw [verifyLines] at ok
    split_ifs at ok with whole blank
    · rw [List.filterMap_cons_none (by rw [blank]; rfl)]
      exact ih ok
    · obtain ⟨hash, checked, rest⟩ := bind_eq_ok.mp ok
      obtain ⟨r, read, rfl, number, small, before, stored⟩ := verifyLine_links checked
      rw [List.filterMap_cons_some (f := fun line => readRecord (trim line)) read]
      exact ⟨number, small, before, stored, ih rest⟩

/-- The hash a chain leads to. -/
def final (sha256 : Text → Digest) (prev : Digest) (rs : List RecordIn) : Digest :=
  rs.foldl (fun _ r => sha256 r.hashed) prev

theorem Links.last (links : Links sha256 prev seq rs) (last : rs.getLast? = some r) :
    r.seq + 1 = seq + rs.length ∧ r.seq < 2 ^ 64 ∧ fromHex32 r.hash = some (final sha256 prev rs) ∧
      final sha256 prev rs = sha256 r.hashed := by
  induction rs generalizing prev seq with
  | nil => cases last
  | cons s rs ih =>
    obtain ⟨number, small, _, stored, links⟩ := links
    cases rs with
    | nil =>
      obtain rfl := Option.some.inj last
      exact ⟨by simp [number], small, stored, rfl⟩
    | cons t rs =>
      rw [List.getLast?_cons_cons] at last
      obtain ⟨count, rest⟩ := ih links last
      exact ⟨by rw [count, List.length_cons (a := s)]; omega, rest⟩

/-- From the tip back to the start: each hash fixes the event and the hash before it. -/
theorem Links.events (links : Links sha256 prev seq rs) (links' : Links sha256 prev' seq rs')
    (free : ∀ a ∈ rs, ∀ b ∈ rs', sha256 a.hashed = sha256 b.hashed → a.hashed = b.hashed)
    (count : rs.length = rs'.length) (same : final sha256 prev rs = final sha256 prev' rs') :
    prev = prev' ∧ rs.map (·.event) = rs'.map (·.event) := by
  induction rs generalizing prev prev' seq rs' with
  | nil =>
    obtain rfl := List.length_eq_zero_iff.mp count.symm
    exact ⟨same, rfl⟩
  | cons r rs ih =>
    cases rs' with
    | nil => cases count
    | cons r' rs' =>
      obtain ⟨_, small, before, _, links⟩ := links
      obtain ⟨_, small', before', _, links'⟩ := links'
      obtain ⟨hash, rest⟩ := ih links links'
        (fun a inside b inside' => free a (.tail _ inside) b (.tail _ inside'))
        (Nat.succ.inj count) same
      obtain ⟨linked, _, event⟩ :=
        hashed_inj small small' (free r List.mem_cons_self r' List.mem_cons_self hash)
      rw [before, before'] at linked
      exact ⟨linked, by rw [List.map_cons, List.map_cons, event, rest]⟩

theorem events_eq (free : ∀ a ∈ recorded f, ∀ b ∈ recorded g,
      sha256 a.hashed = sha256 b.hashed → a.hashed = b.hashed)
    (verified : verify sha256 (some f) = .ok n) (verified' : verify sha256 (some g) = .ok m)
    (tips : tip f = tip g) : events f = events g := by
  have links : Links sha256 genesis 0 (recorded f) := verifyLines_links verified
  have links' : Links sha256 genesis 0 (recorded g) := verifyLines_links verified'
  rw [tip, tip] at tips
  cases last : (recorded f).getLast? with
  | none =>
    rw [last, Option.map_none] at tips
    have last' := Option.map_eq_none_iff.mp tips.symm
    rw [events, events, List.getLast?_eq_none_iff.mp last, List.getLast?_eq_none_iff.mp last']
  | some r =>
    rw [last, Option.map_some] at tips
    obtain ⟨r', last', hash⟩ := Option.map_eq_some_iff.mp tips.symm
    obtain ⟨count, small, stored, ends⟩ := links.last last
    obtain ⟨count', small', stored', ends'⟩ := links'.last last'
    rw [hash, stored] at stored'
    have same := Option.some.inj stored'
    have hashed := free r (List.mem_of_getLast? last) r' (List.mem_of_getLast? last')
      (ends ▸ ends' ▸ same)
    -- the number is hashed too, so the two chains are of one length
    have number := (hashed_inj small small' hashed).2.1
    exact (links.events links' free (by omega) same).2

theorem scanTip_links {ls : List Text} (tip : Option (ℕ × Digest))
    (ok : verifyLines sha256 prev seq ls = .ok n)
    (here : (tip.map (·.1 + 1)).getD 0 = seq ∧ (tip.map (·.2)).getD genesis = prev) :
    ∃ tip', scanTip ls tip = (tip', true) ∧ (tip'.map (·.1 + 1)).getD 0 = n ∧
      (tip'.map (·.2)).getD genesis =
        final sha256 prev (ls.filterMap fun line => readRecord (trim line)) := by
  induction ls generalizing prev seq tip with
  | nil =>
    obtain rfl := Except.ok.inj ok
    exact ⟨tip, rfl, here⟩
  | cons line ls ih =>
    rw [verifyLines] at ok
    split_ifs at ok with whole blank
    · rw [scanTip, if_pos whole, blank, List.filterMap_cons_none (by rw [blank]; rfl)]
      exact ih tip ok here
    · obtain ⟨hash, checked, rest⟩ := bind_eq_ok.mp ok
      obtain ⟨r, read, rfl, rfl, _, _, stored⟩ := verifyLine_links checked
      rw [scanTip, if_pos whole, read,
        List.filterMap_cons_some (f := fun line => readRecord (trim line)) read]
      simp only [stored]
      exact ih _ rest ⟨rfl, rfl⟩

/-- On every file that verifies, whoever wrote it, a restarted sink goes on at its end. -/
theorem verified_resumes (verified : verify sha256 (some f) = .ok n) (opens : Bool) :
    newSink (some f) opens = ⟨n, final sha256 genesis (recorded f), opens, false⟩ := by
  obtain ⟨tip, scanned, count, hash⟩ := scanTip_links none verified ⟨rfl, rfl⟩
  rw [newSink, recoverTip_some, scanned, count, hash]
  rfl

theorem recorded_records (records : List RecordOut) (small : ∀ r ∈ records, r.seq < 2 ^ 64) :
    recorded (records.flatMap RecordOut.line) = records.map RecordOut.read := by
  have all := lines_records records (List.not_mem_nil (a := 10))
  rw [List.append_nil, if_pos rfl, List.append_nil] at all
  rw [recorded, all, List.filterMap_map, ← List.filterMap_eq_map]
  refine List.filterMap_congr fun r inside => ?_
  rw [Function.comp_apply, trim_text, readRecord_text (small r inside)]
  rfl

namespace Written

variable {w : World}

theorem of_whole (run : Reaches sha256 Whole World.empty w) : Written sha256 w [] := by
  induction run with
  | refl => exact .empty
  | tail _ event possible whole ih =>
    cases event with
    | start opens => exact ih.start opens
    | append event opens write =>
      obtain ⟨torn, none, after⟩ := ih.append possible whole.2
      exact none whole.1 ▸ after
    | stop => exact ⟨ih.file, ih.part, ih.chained, ih.room, fun _ => nofun⟩

theorem recorded (written : Written sha256 w []) (there : w.file = some f) :
    Audit.recorded f = w.accepted.map RecordOut.read := by
  rw [written.some_eq there, List.append_nil, recorded_records _ written.small]

end Written

theorem verified_resumes_one : (newSink (some (sampleRecord 0).line) true).seq = 1 := by
  have written := Written.of_whole (.tail (started Whole trivial) (.append sampleEvent true .whole)
    (fun _ _ => trivial) ⟨rfl, by decide⟩)
  rw [verified_resumes (show verify sampleSha (some (sampleRecord 0).line) = .ok 1 from
    written.verifies rfl rfl)]

/-- Without collisions among what the two files hash, two verified files of one tip record the
same events; a file whose events differ from those that were appended fails or has another tip. -/
theorem tip_determines_events (free : ∀ a ∈ recorded f, ∀ b ∈ recorded g,
      sha256 a.hashed = sha256 b.hashed → a.hashed = b.hashed) :
    (∀ n, 1 ≤ n → verify sha256 (some f) = .ok n → verify sha256 (some g) = .ok n → tip f = tip g →
      events f = events g) ∧
    ∀ w, Reaches sha256 Whole World.empty w → w.file = some f →
      events f = w.accepted.map (·.event.bytes) ∧
      (events g ≠ events f → (∃ e, verify sha256 (some g) = .error e) ∨ tip g ≠ tip f) := by
  refine ⟨fun n _ verified verified' => events_eq free verified verified', fun w run there => ?_⟩
  have written := Written.of_whole run
  refine ⟨?_, fun other => ?_⟩
  · rw [events, written.recorded there, List.map_map]
    rfl
  · cases verified : verify sha256 (some g) with
    | error e => exact .inl ⟨e, rfl⟩
    | ok m =>
      exact .inr fun tips =>
        other (events_eq free (written.verifies there rfl) verified tips.symm).symm

theorem blank_line (file : Text) : recorded (10 :: file) = recorded file ∧
    verify sha256 (some (10 :: file)) = verify sha256 (some file) := by
  have more : lines (10 :: file) = [] :: lines file := by
    rw [lines, lines, split, if_pos rfl]
    obtain ⟨complete, rest⟩ := split file
    cases rest <;> rfl
  rw [recorded, verify, more]
  exact ⟨rfl, rfl⟩

/-- A blank line before the only record of a file, or the record once more. -/
theorem tip_determines_events_doubled :
    events (sampleRecord 0).line = events (10 :: (sampleRecord 0).line) ∧
    ∃ e, verify sampleSha (some ((sampleRecord 0).line ++ (sampleRecord 0).line)) = .error e := by
  have run : Reaches sampleSha Whole World.empty
      ⟨some (sampleRecord 0).line, some ⟨1, genesis, true, false⟩, [sampleRecord 0]⟩ :=
    .tail (started Whole trivial) (.append sampleEvent true .whole) (fun _ _ => trivial)
      ⟨rfl, by decide⟩
  have once : recorded (sampleRecord 0).line = [(sampleRecord 0).read] := by
    simpa using recorded_records [sampleRecord 0] (by simp [sampleRecord])
  have twice : recorded ((sampleRecord 0).line ++ (sampleRecord 0).line) =
      [(sampleRecord 0).read, (sampleRecord 0).read] := by
    simpa using recorded_records [sampleRecord 0, sampleRecord 0] (by simp [sampleRecord])
  obtain ⟨blank, skips⟩ := @blank_line sampleSha (sampleRecord 0).line
  have verified := (Written.of_whole run).verifies rfl rfl
  refine ⟨(tip_determines_events (by simp [blank, once])).1 1 le_rfl verified (skips.trans verified) ?_,
    (((tip_determines_events (by simp [once, twice])).2 _ run rfl).2 ?_).resolve_right
      (not_not.mpr ?_)⟩
  · rw [tip, tip, blank]
  · simp [events, once, twice]
  · simp [tip, once, twice]

end TerrapiVault.Audit
