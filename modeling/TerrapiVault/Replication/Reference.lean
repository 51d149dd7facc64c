import TerrapiVault.Replication.Store

/-! The reference application schema: places and features with a cascading foreign
key. SQL statements are functions on the ordered view. The session extension, the
JSON validator and the hash function are fields of `Engine`. -/
namespace TerrapiVault.Replication

inductive Change where
  | putPlace (id name : String)
  | putFeature (id placeId geojson : String)
  | deletePlace (id : String)
deriving DecidableEq, Repr

structure Place where
  id : String
  name : String
deriving DecidableEq, Repr

structure Feature where
  id : String
  placeId : String
  geojson : String
deriving DecidableEq, Repr

structure View where
  places : List Place
  features : List Feature
deriving DecidableEq, Repr

namespace View

/-- `View::default()`, the view of a new database. -/
def empty : View := ⟨[], []⟩

/-- `INSERT INTO places`, a plain insert. -/
def insertPlace (view : View) (place : Place) : Result View := do
  Checked.ensure (∀ p ∈ view.places, p.id ≠ place.id) Fault.constraintViolation
  pure { view with places := Table.put Place.id view.places place }

/-- `REFERENCES places(id)` and `CHECK(json_valid(geojson))`. -/
def admitsFeature (jsonValid : String → Bool) (view : View) (feature : Feature) : Prop :=
  (∃ p ∈ view.places, p.id = feature.placeId) ∧ jsonValid feature.geojson = true

instance (jsonValid : String → Bool) (view : View) (feature : Feature) :
    Decidable (view.admitsFeature jsonValid feature) :=
  inferInstanceAs (Decidable (_ ∧ _))

/-- `INSERT INTO features`, a plain insert. -/
def insertFeature (jsonValid : String → Bool) (view : View) (feature : Feature) :
    Result View := do
  Checked.ensure (∀ f ∈ view.features, f.id ≠ feature.id) Fault.constraintViolation
  Checked.ensure (view.admitsFeature jsonValid feature) Fault.constraintViolation
  pure { view with features := Table.put Feature.id view.features feature }

/-- One statement of `Schema::execute`; puts are upserts, a deleted place takes its
features with it. -/
def execute (jsonValid : String → Bool) (view : View) : Change → Result View
  | .putPlace id name => pure { view with places := Table.put Place.id view.places ⟨id, name⟩ }
  | .putFeature id placeId geojson => do
    Checked.ensure (view.admitsFeature jsonValid ⟨id, placeId, geojson⟩) Fault.constraintViolation
    pure { view with features := Table.put Feature.id view.features ⟨id, placeId, geojson⟩ }
  | .deletePlace id => pure
      { places := view.places.filter fun p => p.id ≠ id
        features := view.features.filter fun f => f.placeId ≠ id }

end View

/-- How applying a changeset can fail: inside the session extension, or in one of
the two checks that follow it. -/
def ReplayFault (fault : Fault) : Prop :=
  fault = .constraintViolation ∨ fault = .sqlite ∨
    fault = .message "changeset contains undeclared SQL table" ∨
    fault = .message "SQL foreign key violation"

/-- An entry and the tables of a reference node. -/
abbrev RefEntry (D : Type) : Type := Entry Change ℕ D

abbrev RefStore (D : Type) : Type := Store Change View ℕ D

/-- What the reference node takes from SQLite, serde and SHA-256. -/
structure Engine (D : Type) where
  jsonValid : String → Bool
  changeset : View → List Change → List UInt8
  replay : View → List UInt8 → Result View
  requestFingerprint : List Change → D
  hash : Hashed Change View ℕ D → D
  length : D → ℕ
  catalogDigest : D
  cipherVersion : String
  cipherVersion_ne : cipherVersion ≠ ""
  replay_error : ∀ view bytes fault, replay view bytes = .error fault → ReplayFault fault
  length_hash : ∀ value, length (hash value) = 64
  length_requestFingerprint : ∀ changes, length (requestFingerprint changes) = 64

open JsonSize in
def Change.size : Change → ℕ
  | .putPlace id name => object [("PutPlace", object [("id", text id), ("name", text name)])]
  | .putFeature id placeId geojson => object [("PutFeature",
      object [("id", text id), ("place_id", text placeId), ("geojson", text geojson)])]
  | .deletePlace id => object [("DeletePlace", object [("id", text id)])]

/-- The adapter `Proximi` over an engine; its fingerprint version is 1. -/
def Engine.schema {D : Type} (engine : Engine D) : Schema Change View ℕ D where
  initial := View.empty
  capture view changes := do
    let next ← changes.foldlM (View.execute engine.jsonValid) view
    pure (next, engine.changeset view changes)
  replay := engine.replay
  requestFingerprint := engine.requestFingerprint
  fingerprintVersion := 1
  hash := engine.hash
  length := engine.length
  changeSize := Change.size
  schemaSize := JsonSize.number
  fingerprintVersion_pos := Nat.one_pos
  length_hash := engine.length_hash
  length_requestFingerprint := engine.length_requestFingerprint

end TerrapiVault.Replication
