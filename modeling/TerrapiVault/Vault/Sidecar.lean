import TerrapiVault.Lib.Checked
import Mathlib.Data.Nat.Notation
import Mathlib.Data.Vector.Basic

/-! Key derivation, key slots and the metadata sidecar of a vault. Argon2id and the AEAD
are ideal: a derived key is its inputs, and a wrapped key opens under the key and the slot
name it was sealed with and under no others. Salts and ciphertexts are held decoded; a file
whose texts do not decode is not a sidecar. -/
namespace TerrapiVault.Vault

inductive Error where
  | alreadyExists
  | metaMissing
  | metaInvalid (reason : String)
  | json
  | kdf (reason : String)
  | wrongPassphrase
  | wrongRecoveryCode
  | noRecoverySlot
  | db
  | io
deriving DecidableEq, Repr

abbrev Result : Type → Type := Except Error

/-- The bytes of a passphrase. -/
abbrev Passphrase : Type := List UInt8

abbrev Salt : Type := Vector UInt8 16

structure RecoveryCode where
  bytes : Vector UInt8 20
deriving DecidableEq

structure KdfParams where
  mCostKib : ℕ
  tCost : ℕ
  pCost : ℕ
deriving DecidableEq, Repr

def maxMCostKib : ℕ := 4 * 1024 * 1024

def maxTCost : ℕ := 16

def maxPCost : ℕ := 16

def minMCostKib : ℕ := 19 * 1024

def minTCost : ℕ := 2

namespace KdfParams

variable (p : KdfParams)

def floored : KdfParams := ⟨max p.mCostKib minMCostKib, max p.tCost minTCost, p.pCost⟩

/-- What `validate` lets a sidecar carry. -/
abbrev Bounded : Prop := p.mCostKib ≤ maxMCostKib ∧ p.tCost ≤ maxTCost ∧ p.pCost ≤ maxPCost

def validate : Result Unit :=
  Checked.ensure p.Bounded (Error.metaInvalid ("argon2 params exceed limits (m_cost_kib=" ++
    toString p.mCostKib ++ " t_cost=" ++ toString p.tCost ++ " p_cost=" ++ toString p.pCost ++ ")"))

/-- The bounds that `argon2::Params::new` documents. -/
abbrev Accepted : Prop :=
  8 ≤ p.mCostKib ∧ 8 * p.pCost ≤ p.mCostKib ∧ 1 ≤ p.tCost ∧ 1 ≤ p.pCost ∧ p.pCost < 2 ^ 24

theorem validate_eq_ok {u : Unit} : p.validate = .ok u ↔ p.Bounded := Checked.ensure_eq_ok

theorem Bounded.floored {p : KdfParams} (bounded : p.Bounded) : p.floored.Bounded := by
  obtain ⟨memory, time, lanes⟩ := bounded
  refine ⟨?_, ?_, lanes⟩
  · simp only [KdfParams.floored, maxMCostKib, minMCostKib] at memory ⊢
    omega
  · simp only [KdfParams.floored, maxTCost, minTCost] at time ⊢
    omega

theorem Accepted.floored {p : KdfParams} (accepted : p.Accepted) : p.floored.Accepted := by
  obtain ⟨memory, lanes, time, one, few⟩ := accepted
  refine ⟨?_, ?_, ?_, one, few⟩ <;> simp only [KdfParams.floored] <;> omega

end KdfParams

inductive Key where
  | derived (secret : List UInt8) (salt : Salt) (params : KdfParams)
  | random (bytes : Vector UInt8 32)
deriving DecidableEq

/-- The reason that `argon2` adds to the message is left out. -/
def deriveKeyFromBytes (secret : List UInt8) (salt : Salt) (params : KdfParams) : Result Key := do
  Checked.ensure params.Accepted (Error.kdf "invalid argon2 params")
  pure (.derived secret salt params)

def deriveKey (passphrase : Passphrase) (salt : Salt) (params : KdfParams) : Result Key :=
  deriveKeyFromBytes passphrase salt params

theorem deriveKeyFromBytes_of {secret : List UInt8} {salt : Salt} {params : KdfParams}
    (accepted : params.Accepted) :
    deriveKeyFromBytes secret salt params = .ok (.derived secret salt params) := by
  rw [deriveKeyFromBytes, Checked.ensure_of _ accepted]
  rfl

inductive SlotName where
  | password
  | recovery
deriving DecidableEq, Repr

/-- `seal` keeps the key it was made under; only `unwrap` reads it. -/
structure WrappedKey where
  slotKey : Key
  dek : Key
  slot : SlotName
deriving DecidableEq

/-- `keyslot::seal`. -/
def wrap (slotKey dek : Key) (slot : SlotName) : WrappedKey := ⟨slotKey, dek, slot⟩

/-- `keyslot::open`. -/
def unwrap (slotKey : Key) (wrapped : WrappedKey) (slot : SlotName) : Option Key :=
  if wrapped.slotKey = slotKey ∧ wrapped.slot = slot then some wrapped.dek else none

theorem unwrap_wrap (slotKey slotKey' dek : Key) (slot : SlotName) :
    unwrap slotKey' (wrap slotKey dek slot) slot = if slotKey = slotKey' then some dek else none := by
  simp [unwrap, wrap]

structure KeySlot where
  kdfParams : KdfParams
  salt : Salt
  wrap : WrappedKey
deriving DecidableEq

structure KeySlots where
  password : KeySlot
  recovery : Option KeySlot
deriving DecidableEq

/-- `VestaMeta`, the legacy sidecar: the salt derives the database key. -/
structure MetaV1 where
  kdfParams : KdfParams
  salt : Salt
deriving DecidableEq

structure MetaV2 where
  slots : KeySlots
deriving DecidableEq

inductive StoredMeta where
  | v1 (info : MetaV1)
  | v2 (info : MetaV2)
deriving DecidableEq

/-- `MetaV2::new`. -/
def MetaV2.fresh (password : KeySlot) : MetaV2 := ⟨⟨password, none⟩⟩

def MetaV2.validate (m : MetaV2) : Result Unit := do
  m.slots.password.kdfParams.validate
  match m.slots.recovery with
  | some slot => slot.kdfParams.validate
  | none => pure ()

def StoredMeta.validate : StoredMeta → Result Unit
  | .v1 m => m.kdfParams.validate
  | .v2 m => m.validate

abbrev MetaV2.Bounded (m : MetaV2) : Prop :=
  m.slots.password.kdfParams.Bounded ∧ ∀ slot ∈ m.slots.recovery, slot.kdfParams.Bounded

abbrev StoredMeta.Bounded : StoredMeta → Prop
  | .v1 m => m.kdfParams.Bounded
  | .v2 m => m.Bounded

theorem StoredMeta.validate_eq_ok {m : StoredMeta} {u : Unit} : m.validate = .ok u ↔ m.Bounded := by
  cases m with
  | v1 info => exact KdfParams.validate_eq_ok _
  | v2 info =>
    simp only [StoredMeta.validate, MetaV2.validate, StoredMeta.Bounded, MetaV2.Bounded,
      unit_bind_eq_ok, KdfParams.validate_eq_ok]
    cases info.slots.recovery with
    | none => simp
    | some slot => simp [KdfParams.validate_eq_ok]

/-- `reseal_password_slot` with the salt it draws. -/
def resealPasswordSlot (dek : Key) (passphrase : Passphrase) (params : KdfParams) (salt : Salt) :
    Result KeySlot := do
  let slotKey ← deriveKey passphrase salt params
  pure ⟨params, salt, wrap slotKey dek .password⟩

/-- `StoredMeta::read` of what the path leads to. -/
def StoredMeta.parse : Option (Option StoredMeta) → Result StoredMeta
  | none => throw .metaMissing
  | some none => throw .json
  | some (some m) => do
    m.validate
    pure m

theorem StoredMeta.parse_eq_ok {found : Option (Option StoredMeta)} {m : StoredMeta} :
    StoredMeta.parse found = .ok m ↔ found = some (some m) ∧ m.Bounded := by
  match found with
  | none => simp [StoredMeta.parse]
  | some none => simp [StoredMeta.parse]
  | some (some m') =>
    simp only [StoredMeta.parse, unit_bind_eq_ok, StoredMeta.validate_eq_ok, pure_inj, Option.some.injEq]
    constructor
    · rintro ⟨bounded, rfl⟩
      exact ⟨rfl, bounded⟩
    · rintro ⟨rfl, bounded⟩
      exact ⟨bounded, rfl⟩

end TerrapiVault.Vault
