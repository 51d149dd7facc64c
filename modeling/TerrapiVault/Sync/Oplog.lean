import Mathlib.Logic.Relation
import Mathlib.Data.List.Nodup
import Mathlib.Data.UInt
import TerrapiVault.Lib.Checked

/-! The op log of one vault in the sync store: `push_ops`, `pull_ops`, and what becomes
of an op between the two. -/
namespace TerrapiVault.Sync

open Relation (ReflTransGen)

structure Hlc where
  wallMs : UInt64
  counter : UInt32
deriving DecidableEq

structure Op where
  opId : String
  deviceId : String
  hlc : Hlc
  collectionId : String
  encryptedPayload : String
deriving DecidableEq

structure StoredOp extends Op where
  seq : ℕ
deriving DecidableEq

/-- The standard engine decodes no text but the one it would write. -/
structure Base64 (β : Type) where
  decode : String → Option β
  encode : β → String
  canonical : ∀ text bytes, decode text = some bytes → encode bytes = text

/-- A row of the vault, in the order of the numbers; the integer columns are never negative. -/
structure Row (β : Type) where
  seq : ℕ
  opId : String
  deviceId : String
  hlcWall : ℕ
  hlcCounter : ℕ
  collectionId : String
  payload : β

inductive PushError where
  | invalidPayload

def i64Max : ℕ := 2 ^ 63 - 1

variable {β : Type} (B : Base64 β)

def latestSeq (rows : List (Row β)) : ℕ := rows.foldl (fun n r => max n r.seq) 0

/-- The transaction of a push. -/
structure Push (β : Type) where
  rows : List (Row β)
  seq : ℕ
  accepted : ℕ := 0
  duplicates : ℕ := 0
  stored : List StoredOp := []

def Push.op (p : Push β) (op : Op) : Except PushError (Push β) :=
  if p.rows.any fun r => r.opId = op.opId then
    .ok { p with duplicates := p.duplicates + 1 }
  else
    match B.decode op.encryptedPayload with
    | none => .error .invalidPayload
    | some payload => .ok { p with
        rows := p.rows ++ [⟨p.seq + 1, op.opId, op.deviceId, min op.hlc.wallMs.toNat i64Max,
          op.hlc.counter.toNat, op.collectionId, payload⟩]
        seq := p.seq + 1
        accepted := p.accepted + 1
        stored := p.stored ++ [⟨op, p.seq + 1⟩] }

def pushOps (rows : List (Row β)) (ops : List Op) : Except PushError (Push β) :=
  ops.foldlM (Push.op B) { rows, seq := latestSeq rows }

def Row.read (r : Row β) : StoredOp where
  opId := r.opId
  deviceId := r.deviceId
  hlc := ⟨.ofNat r.hlcWall, if r.hlcCounter < 2 ^ 32 then .ofNat r.hlcCounter else .ofNat (2 ^ 32 - 1)⟩
  collectionId := r.collectionId
  encryptedPayload := B.encode r.payload
  seq := r.seq

def pullOps (rows : List (Row β)) (since limit : ℕ) : List StoredOp × ℕ :=
  (((rows.filter fun r => min since i64Max < r.seq).take limit).map (Row.read B), latestSeq rows)

variable {B} {p p' : Push β} {o : Op} {ops : List Op} {rows later : List (Row β)}

theorem Push.op_cases (h : p.op B o = .ok p') :
    p' = { p with duplicates := p.duplicates + 1 } ∨
    ∃ r : Row β, p' = { p with
        rows := p.rows ++ [r], seq := p.seq + 1, accepted := p.accepted + 1
        stored := p.stored ++ [⟨o, p.seq + 1⟩] } ∧
      o.opId ∉ p.rows.map Row.opId ∧ r.opId = o.opId ∧ r.seq = p.seq + 1 ∧
      (r.read B = ⟨o, p.seq + 1⟩ ↔ o.hlc.wallMs.toNat ≤ i64Max) := by
  unfold Push.op at h
  split_ifs at h with known
  · exact .inl (Except.ok.inj h).symm
  cases decoded : B.decode o.encryptedPayload with
  | none => simp [decoded] at h
  | some payload =>
    rw [decoded] at h
    refine .inr ⟨_, (Except.ok.inj h).symm, by simpa using known, rfl, rfl, ?_⟩
    have clamp : UInt64.ofNat (min o.hlc.wallMs.toNat i64Max) = o.hlc.wallMs ↔
        o.hlc.wallMs.toNat ≤ i64Max := by
      rw [← UInt64.toNat_inj, UInt64.toNat_ofNat_of_lt' (by simp only [i64Max, UInt64.size]; omega)]
      omega
    have counter : o.hlc.counter.toNat < 2 ^ 32 := o.hlc.counter.toNat_lt
    simp only [Row.read, B.canonical _ _ decoded, if_pos counter, UInt32.ofNat_toNat]
    constructor
    · intro same
      exact clamp.mp (congrArg (fun s => s.hlc.wallMs) same)
    · intro small
      rw [clamp.mpr small]

/-- What a transaction has done to the rows it began with. -/
structure Recorded (B : Base64 β) (rows : List (Row β)) (ops : List Op) (p : Push β) : Prop where
  distinct : (p.rows.map Row.opId).Nodup
  kept : rows ⊆ p.rows
  stored : ∀ s ∈ p.stored, s.toOp ∈ ops ∧
    ∃ r ∈ p.rows, r.opId = s.opId ∧ (r.read B = s ↔ s.hlc.wallMs.toNat ≤ i64Max)

theorem Recorded.step (recorded : Recorded B rows ops p) (mem : o ∈ ops) (h : p.op B o = .ok p') :
    Recorded B rows ops p' := by
  obtain rfl | ⟨r, rfl, fresh, named, _, reads⟩ := Push.op_cases h
  · exact { recorded with }
  refine ⟨?_, fun x old => List.mem_append_left _ (recorded.kept old), ?_⟩
  · rw [List.map_append, List.nodup_append_comm]
    exact List.nodup_cons.mpr ⟨by simpa [named] using fresh, recorded.distinct⟩
  · intro s stored
    rcases List.mem_append.mp stored with old | new
    · obtain ⟨pushed, x, inside, same⟩ := recorded.stored s old
      exact ⟨pushed, x, List.mem_append_left _ inside, same⟩
    · obtain rfl := List.mem_singleton.mp new
      exact ⟨mem, r, by simp, named, reads⟩

theorem pushOps_induction {P : Push β → Prop} (start : P { rows, seq := latestSeq rows })
    (step : ∀ q o q', o ∈ ops → P q → q.op B o = .ok q' → P q')
    (h : pushOps B rows ops = .ok p) : P p := by
  have loop : ∀ (rest : List Op) (q : Push β), rest ⊆ ops → P q →
      rest.foldlM (Push.op B) q = .ok p → P p := by
    intro rest
    induction rest with
    | nil =>
      intro q _ holds done
      obtain rfl := Except.ok.inj done
      exact holds
    | cons o rest ih =>
      intro q inside holds done
      obtain ⟨q', first, done⟩ := bind_eq_ok.mp done
      exact ih q' (fun x mem => inside (.tail _ mem)) (step q o q' (inside (.head _)) holds first) done
  exact loop ops _ (fun _ mem => mem) start h

theorem pushOps_recorded (distinct : (rows.map Row.opId).Nodup) (h : pushOps B rows ops = .ok p) :
    Recorded B rows ops p :=
  pushOps_induction ⟨distinct, fun _ mem => mem, by simp⟩
    (fun _ _ _ mem recorded first => recorded.step mem first) h

/-- One more push. -/
def Pushed (B : Base64 β) (rows rows' : List (Row β)) : Prop :=
  ∃ ops p, pushOps B rows ops = .ok p ∧ p.rows = rows'

theorem Pushed.run (run : ReflTransGen (Pushed B) rows later)
    (distinct : (rows.map Row.opId).Nodup) : (later.map Row.opId).Nodup ∧ rows ⊆ later := by
  induction run with
  | refl => exact ⟨distinct, fun _ mem => mem⟩
  | tail _ pushed ih =>
    obtain ⟨ops, p, done, rfl⟩ := pushed
    have recorded := pushOps_recorded ih.1 done
    exact ⟨recorded.distinct, fun _ mem => recorded.kept (ih.2 mem)⟩

/-- A pull returns an op as it was pushed and broadcast exactly if its wall clock fits the
signed column. -/
theorem pull_returns_pushed (before : ReflTransGen (Pushed B) [] rows)
    (pushed : pushOps B rows ops = .ok p) (after : ReflTransGen (Pushed B) p.rows later)
    {s x : StoredOp} {since limit : ℕ} (stored : s ∈ p.stored)
    (pulled : x ∈ (pullOps B later since limit).1) (same : x.opId = s.opId) :
    s.toOp ∈ ops ∧ (x = s ↔ s.hlc.wallMs.toNat ≤ i64Max) := by
  have recorded := pushOps_recorded (Pushed.run before .nil).1 pushed
  obtain ⟨distinct, kept⟩ := Pushed.run after recorded.distinct
  obtain ⟨mem, r, inside, named, reads⟩ := recorded.stored s stored
  obtain ⟨row, found, rfl⟩ := List.mem_map.mp pulled
  have found := List.mem_of_mem_filter (List.mem_of_mem_take found)
  obtain rfl := List.inj_on_of_nodup_map distinct found (kept inside)
    (same.trans named.symm)
  exact ⟨mem, reads⟩

/-- The numbers are consecutive, and the largest is found. -/
def Numbered (rows : List (Row β)) : Prop :=
  rows.map Row.seq = List.range' 1 rows.length ∧ latestSeq rows = rows.length

theorem pushOps_numbered (numbered : Numbered rows) (h : pushOps B rows ops = .ok p) :
    Numbered p.rows ∧ rows <+: p.rows := by
  refine (pushOps_induction (P := fun q => q.seq = q.rows.length ∧ Numbered q.rows ∧
    rows <+: q.rows) ⟨numbered.2, numbered, List.prefix_rfl⟩ ?_ h).2
  rintro q o q' _ ⟨count, ⟨numbers, latest⟩, kept⟩ done
  obtain rfl | ⟨r, rfl, _, _, number, _⟩ := Push.op_cases done
  · exact ⟨count, ⟨numbers, latest⟩, kept⟩
  rw [count] at number
  refine ⟨by simp [count], ⟨?_, ?_⟩, kept.trans (List.prefix_append ..)⟩
  · simp [numbers, number, List.range'_1_concat, Nat.add_comm 1]
  · rw [latestSeq, List.foldl_append, ← latestSeq, latest]
    simp [number]

theorem Pushed.numbered (run : ReflTransGen (Pushed B) rows later) (numbered : Numbered rows) :
    Numbered later ∧ rows <+: later := by
  induction run with
  | refl => exact ⟨numbered, List.prefix_rfl⟩
  | tail _ pushed ih =>
    obtain ⟨ops, p, done, rfl⟩ := pushed
    obtain ⟨numbers, kept⟩ := pushOps_numbered ih.1 done
    exact ⟨numbers, ih.2.trans kept⟩

theorem filter_eq_drop {m since : ℕ} (numbers : rows.map Row.seq = List.range' m rows.length) :
    (rows.filter fun r => since < r.seq) = rows.drop (since + 1 - m) := by
  induction rows generalizing m with
  | nil => simp
  | cons r rows ih =>
    obtain ⟨first, rest⟩ := List.cons.inj numbers
    rw [List.filter_cons, ih rest, first]
    by_cases later : since < m
    · simp [later, Nat.sub_eq_zero_of_le later, Nat.sub_eq_zero_of_le later.le]
    · rw [if_neg (by simpa using later), Nat.succ_sub (not_lt.mp later), List.drop_succ_cons,
        Nat.succ_sub_succ]

/-- The log grows at its end under consecutive numbers, and a pull returns the rows next after
the number it names. -/
theorem pulls_follow_log (before : ReflTransGen (Pushed B) [] rows)
    (after : ReflTransGen (Pushed B) rows later) (fits : later.length ≤ i64Max) (since limit : ℕ) :
    rows <+: later ∧ later.map Row.seq = List.range' 1 later.length ∧
      pullOps B later since limit =
        (((later.drop since).take limit).map (Row.read B), later.length) := by
  obtain ⟨⟨numbers, latest⟩, kept⟩ := Pushed.numbered after (Pushed.numbered before ⟨rfl, rfl⟩).1
  refine ⟨kept, numbers, ?_⟩
  rw [pullOps, filter_eq_drop numbers, Nat.add_sub_cancel, latest]
  rcases le_total since i64Max with within | beyond
  · rw [Nat.min_eq_left within]
  · rw [Nat.min_eq_right beyond, List.drop_eq_nil_of_le fits,
      List.drop_eq_nil_of_le (fits.trans beyond)]

namespace Sample

/-- Payloads that are kept as they are. -/
def plain : Base64 String := ⟨some, id, fun _ _ h => (Option.some.inj h).symm⟩

def op (id : String) (wallMs : UInt64) : Op := ⟨id, "d", ⟨wallMs, 0⟩, "c", "cA=="⟩

def pushed (wallMs : UInt64) : Push String :=
  ⟨[⟨1, "o", "d", min wallMs.toNat i64Max, 0, "c", "cA=="⟩], 1, 1, 0, [⟨op "o" wallMs, 1⟩]⟩

theorem pushOps_pushed (wallMs : UInt64) :
    pushOps plain [] [op "o" wallMs] = .ok (pushed wallMs) := rfl

/-- A wall clock beyond the column comes back as the largest one that fits. -/
theorem pull_clamped :
    pushOps plain [] [op "o" (2 ^ 63)] = .ok (pushed (2 ^ 63)) ∧
    (pushed (2 ^ 63)).stored = [⟨op "o" (2 ^ 63), 1⟩] ∧
    (pullOps plain (pushed (2 ^ 63)).rows 0 1).1 = [⟨op "o" (2 ^ 63 - 1), 1⟩] := by
  refine ⟨pushOps_pushed _, rfl, ?_⟩
  decide +kernel

theorem pulls_follow_log_second : ∃ later : List (Row String), (pushed 7).rows <+: later ∧
    pullOps plain later 1 1 = ([⟨op "n" 8, 2⟩], 2) := by
  have run : ReflTransGen (Pushed plain) (pushed 7).rows _ := .single ⟨[op "n" 8], _, rfl, rfl⟩
  obtain ⟨kept, _, pulled⟩ := pulls_follow_log (.single ⟨_, _, pushOps_pushed 7, rfl⟩) run
    (show 2 ≤ i64Max by decide) 1 1
  exact ⟨_, kept, pulled⟩

theorem pull_returns_pushed_small :
    (⟨op "o" 7, 1⟩ : StoredOp) ∈ (pullOps plain (pushed 7).rows 0 1).1 ∧
    (op "o" 7 ∈ [op "o" 7] ∧ ((⟨op "o" 7, 1⟩ : StoredOp) = ⟨op "o" 7, 1⟩ ↔
      (7 : UInt64).toNat ≤ i64Max)) := by
  have pulled : (⟨op "o" 7, 1⟩ : StoredOp) ∈ (pullOps plain (pushed 7).rows 0 1).1 := by
    decide +kernel
  exact ⟨pulled, pull_returns_pushed (s := ⟨op "o" 7, 1⟩) .refl (pushOps_pushed 7) .refl
    (List.mem_singleton.mpr rfl) pulled rfl⟩

end Sample

end TerrapiVault.Sync
