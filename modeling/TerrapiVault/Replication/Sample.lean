import TerrapiVault.Replication.Reference
import Mathlib.Logic.Function.Basic

/-! An engine whose digests are the hashed values themselves, written as binary
trees. It has no collisions and everything it computes can be evaluated, so it
carries the concrete runs of this development. -/
namespace TerrapiVault.Replication.Sample

inductive Term where
  | nil
  | text (s : String)
  | number (n : ℕ)
  | pair (first second : Term)
deriving DecidableEq, Repr

namespace Term

variable {α : Type}

def list (encode : α → Term) : List α → Term
  | [] => .nil
  | x :: xs => .pair (encode x) (list encode xs)

theorem list_injective {encode : α → Term} (h : Function.Injective encode) :
    Function.Injective (list encode) := by
  intro xs
  induction xs with
  | nil =>
    intro ys same
    cases ys with
    | nil => rfl
    | cons y ys => simp [list] at same
  | cons x xs ih =>
    intro ys same
    cases ys with
    | nil => simp [list] at same
    | cons y ys =>
      simp only [list, pair.injEq] at same
      rw [h same.1, ih same.2]

def tuple (terms : List Term) : Term := list id terms

theorem tuple_inj {a b : List Term} : tuple a = tuple b ↔ a = b :=
  (list_injective Function.injective_id).eq_iff

def byte (b : UInt8) : Term := .number b.toNat

theorem byte_injective : Function.Injective byte := by
  intro a b same
  exact UInt8.toNat_inj.mp (Term.number.inj same)

def place (p : Place) : Term := tuple [.text p.id, .text p.name]

theorem place_injective : Function.Injective place := by
  intro a b same
  cases a
  cases b
  simpa [place, tuple_inj] using same

def feature (f : Feature) : Term := tuple [.text f.id, .text f.placeId, .text f.geojson]

theorem feature_injective : Function.Injective feature := by
  intro a b same
  cases a
  cases b
  simpa [feature, tuple_inj] using same

def view (v : View) : Term := tuple [list place v.places, list feature v.features]

theorem view_injective : Function.Injective view := by
  intro a b same
  cases a
  cases b
  simpa [view, tuple_inj, (list_injective place_injective).eq_iff,
    (list_injective feature_injective).eq_iff] using same

def change : Change → Term
  | .putPlace id name => tuple [.number 1, .text id, .text name]
  | .putFeature id placeId geojson => tuple [.number 2, .text id, .text placeId, .text geojson]
  | .deletePlace id => tuple [.number 3, .text id]

theorem change_injective : Function.Injective change := by
  intro a b same
  cases a <;> cases b <;> simp [change, tuple_inj] at same ⊢ <;> exact same

def identity (i : Identity ℕ) : Term :=
  tuple [.text i.cluster, .text i.tenant, .number i.epoch, .number i.schema]

theorem identity_injective : Function.Injective identity := by
  intro a b same
  cases a
  cases b
  simpa [identity, tuple_inj] using same

def batch (b : Batch Change ℕ) : Term :=
  tuple [identity b.identity, .text b.operationId, list change b.changes]

theorem batch_injective : Function.Injective batch := by
  intro a b same
  cases a
  cases b
  simpa [batch, tuple_inj, identity_injective.eq_iff,
    (list_injective change_injective).eq_iff] using same

def state : State → Term
  | .prepared => .number 0
  | .decided => .number 1
  | .applied => .number 2

theorem state_injective : Function.Injective state := by
  intro a b same
  cases a <;> cases b <;> simp [state] at same ⊢

def entry (e : Entry Change ℕ Term) : Term :=
  tuple [batch e.batch, .number e.sequence, e.before, e.after, list byte e.changeset, e.digest,
    state e.state]

theorem entry_injective : Function.Injective entry := by
  intro a b same
  cases a
  cases b
  simpa [entry, tuple_inj, batch_injective.eq_iff, (list_injective byte_injective).eq_iff,
    state_injective.eq_iff] using same

def receipt (r : OperationReceipt Term) : Term :=
  tuple [.number r.fingerprintVersion, r.requestDigest, .number r.resultVersion,
    .text r.result.operationId, .number r.result.sequence]

theorem receipt_injective : Function.Injective receipt := by
  intro a b same
  obtain ⟨_, _, _, ⟨_, _⟩⟩ := a
  obtain ⟨_, _, _, ⟨_, _⟩⟩ := b
  simpa [receipt, tuple_inj] using same

def hashed : Hashed Change View ℕ Term → Term
  | .view v => tuple [.number 0, view v]
  | .entry b sequence before after changeset =>
    tuple [.number 1, batch b, .number sequence, before, after, list byte changeset]
  | .chain i => tuple [.number 2, identity i]
  | .link digest e => tuple [.number 3, digest, e]
  | .receipts rows => tuple [.number 4, list receipt rows]
  | .snapshot i v entries digest =>
    tuple [.number 5, identity i, view v, list entry entries, digest]

theorem hashed_injective : Function.Injective hashed := by
  intro a b same
  cases a <;> cases b <;>
    simp [hashed, tuple_inj, view_injective.eq_iff, batch_injective.eq_iff,
      identity_injective.eq_iff, (list_injective byte_injective).eq_iff,
      (list_injective receipt_injective).eq_iff, (list_injective entry_injective).eq_iff]
      at same ⊢ <;> exact same

end Term

/-- Changesets know one effect: the place `p` named `n`. -/
def engine : Engine Term where
  jsonValid _ := true
  changeset _ changes := if changes = [] then [] else [1]
  replay view bytes := if bytes = [] then .ok view else .ok ⟨[⟨"p", "n"⟩], []⟩
  requestFingerprint := Term.list Term.change
  hash := Term.hashed
  length _ := 64
  catalogDigest := .text "catalog"
  cipherVersion := "4.6.1 community"
  cipherVersion_ne := by decide
  replay_error view bytes fault failed := by split at failed <;> simp at failed
  length_hash _ := rfl
  length_requestFingerprint _ := rfl

theorem engine_hash_injective : Function.Injective engine.hash := Term.hashed_injective

def pairIdentity : Identity ℕ := ⟨"pair", "tenant", 1, 1⟩

/-- A constant draw, for runs in which random values play no part. -/
def draw (n : UInt8) : Bytes32 := Vector.replicate 32 n

def emptyBatch (id : String) : Batch Change ℕ := ⟨pairIdentity, id, []⟩

def placeBatch (id : String) : Batch Change ℕ := ⟨pairIdentity, id, [.putPlace "p" "n"]⟩

end TerrapiVault.Replication.Sample
