import TerrapiVault.Lib.CrashLogic
import TerrapiVault.Vault.Sidecar
import Mathlib.Logic.Function.Basic

/-! The directory of a vault, the operations on it, one atomic step each, and the programs of a
vault handle. A path is absent, a regular file or a symbolic link; a database file is its key
and its data. -/
namespace TerrapiVault.Vault

open CrashLogic

inductive Name where
  | vault
  | wal
  | shm
  | sidecar
  | sidecarTmp
  | staged
  | stagedTmp
  | other (n : ℕ)
deriving DecidableEq, Repr

/-- The sibling `atomic_write_json` writes before it renames. -/
def Name.tmp : Name → Name
  | .staged => .stagedTmp
  | _ => .sidecarTmp

inductive Content (δ : Type) where
  | empty
  | database (key : Key) (data : δ)
  | sidecar (info : StoredMeta)
  | foreign
deriving DecidableEq

inductive Entry (δ : Type) where
  | absent
  | file (content : Content δ)
  | link (target : Name)

abbrev Files (δ : Type) : Type := Name → Entry δ

namespace Files

variable {δ : Type} {fs : Files δ} {name : Name}

/-- Links the system follows before it gives up. -/
def maxLinks : ℕ := 40

def follow (fs : Files δ) : ℕ → Name → Option Name
  | 0, _ => none
  | fuel + 1, name =>
    match fs name with
    | .link target => follow fs fuel target
    | _ => some name

def located (fs : Files δ) (name : Name) : Option Name := fs.follow (maxLinks + 1) name

/-- What a read of the path finds, links followed. -/
def read (fs : Files δ) (name : Name) : Option (Content δ) :=
  match fs.located name with
  | none => none
  | some found =>
    match fs found with
    | .file content => some content
    | _ => none

def present (fs : Files δ) (name : Name) : Bool := (fs.read name).isSome

abbrev Regular (fs : Files δ) (name : Name) : Prop := ∃ content, fs name = .file content

def isLink (fs : Files δ) (name : Name) : Bool :=
  match fs name with
  | .link _ => true
  | _ => false

def put (fs : Files δ) (name : Name) (entry : Entry δ) : Files δ := Function.update fs name entry

@[simp] theorem put_same (fs : Files δ) (name : Name) (entry : Entry δ) :
    fs.put name entry name = entry := by
  simp [put]

@[simp] theorem put_other (fs : Files δ) {name' : Name} (entry : Entry δ) (ne : name' ≠ name) :
    fs.put name entry name' = fs name' := by
  simp [put, ne]

theorem located_of_file {content : Content δ} (file : fs name = .file content) :
    fs.located name = some name := by
  simp [located, follow, file]

theorem located_of_absent (absent : fs name = .absent) : fs.located name = some name := by
  simp [located, follow, absent]

theorem read_of_file {content : Content δ} (file : fs name = .file content) :
    fs.read name = some content := by
  simp [read, located_of_file file, file]

theorem read_of_absent (absent : fs name = .absent) : fs.read name = none := by
  simp [read, located_of_absent absent, absent]

end Files

/-- What the environment decides about one step. -/
structure Choice where
  stop : Bool
  salt : Salt
  key : Vector UInt8 32
  code : RecoveryCode

abbrev Calm (c : Choice) : Prop := c.stop = false

variable {δ α : Type}

abbrev Program (δ α : Type) : Type := Script (Files δ) Choice Error α

/-- One operation; the process may stop after it. -/
def act (f : Choice → Files δ → Files δ × Result α) : Program δ α :=
  Script.step fun c fs => ((f c fs).1, if c.stop then none else some (f c fs).2)

/-- A process that may stop here leaves what it owes. -/
def Halts (allow : Choice → Prop) (crash pre : Files δ → Prop) : Prop :=
  ∀ c fs, allow c → c.stop = true → pre fs → crash fs

variable {allow : Choice → Prop} {crash pre : Files δ → Prop}

theorem Halts.calm : Halts Calm crash pre := by
  intro c fs calm stop _
  rw [calm] at stop
  cases stop

theorem Halts.of (owed : ∀ fs, pre fs → crash fs) : Halts allow crash pre :=
  fun _ fs _ _ holds => owed fs holds

theorem Halts.mono {pre' : Files δ → Prop} (halts : Halts allow crash pre)
    (weaker : ∀ fs, pre' fs → pre fs) : Halts allow crash pre' :=
  fun c fs allowed stop holds => halts c fs allowed stop (weaker fs holds)

theorem act_spec {post : α → Files δ → Prop} {fail : Error → Files δ → Prop}
    {f : Choice → Files δ → Files δ × Result α}
    (stops : ∀ c fs, allow c → pre fs → c.stop = true → crash (f c fs).1)
    (ok : ∀ c fs a, allow c → pre fs → (f c fs).2 = .ok a → post a (f c fs).1)
    (fails : ∀ c fs e, allow c → pre fs → (f c fs).2 = .error e → fail e (f c fs).1) :
    Triple allow crash pre (act f) post fail := by
  refine Triple.step fun c fs allowed holds => ?_
  cases stop : c.stop with
  | true => simpa [stop] using stops c fs allowed holds stop
  | false =>
    simp only [Bool.false_eq_true, if_false]
    match answer : (f c fs).2 with
    | .ok a => exact ok c fs a allowed holds answer
    | .error e => exact fails c fs e allowed holds answer

/-- `let _ = remove_file`. -/
def discard (name : Name) : Program δ Unit := act fun _ fs => (fs.put name .absent, .ok ())

def removeFile (name : Name) : Program δ Unit := act fun _ fs =>
  match fs name with
  | .absent => (fs, .error .io)
  | _ => (fs.put name .absent, .ok ())

/-- `create_new`. -/
def createNew (name : Name) : Program δ Unit := act fun _ fs =>
  match fs name with
  | .absent => (fs.put name (.file .empty), .ok ())
  | _ => (fs, .error .io)

def writeAll (name : Name) (info : StoredMeta) : Program δ Unit := act fun _ fs =>
  (fs.put name (.file (.sidecar info)), .ok ())

def rename (source target : Name) : Program δ Unit := act fun _ fs =>
  match fs source with
  | .absent => (fs, .error .io)
  | entry => ((fs.put source .absent).put target entry, .ok ())

/-- `atomic_write_json`. -/
def atomicWriteJson (info : StoredMeta) (name : Name) : Program δ Unit := do
  discard name.tmp
  createNew name.tmp
  writeAll name.tmp info
  rename name.tmp name

/-- `StoredMeta::read`. -/
def readMeta (name : Name) : Program δ StoredMeta := do
  let found ← Script.look fun fs => fs.read name
  Script.ofExcept (StoredMeta.parse (found.map fun
    | .sidecar info => some info
    | _ => none))

/-- `open_keyed` with the read that follows it. A missing or empty file becomes a new
database under the key; any other key is reported by the first read of the file. -/
def openKeyed [Inhabited δ] (name : Name) (key : Key) : Program δ δ := act fun _ fs =>
  match fs.located name with
  | none => (fs, .error .db)
  | some found =>
    match fs found with
    | .file (.database key' data) =>
      if key' = key then (fs, .ok data) else (fs, .error .wrongPassphrase)
    | .absent | .file .empty => (fs.put found (.file (.database key default)), .ok default)
    | _ => (fs, .error .wrongPassphrase)

/-- `PRAGMA rekey` on the connection to the vault. -/
def rekey (key : Key) : Program δ Unit := act fun _ fs =>
  match fs.located .vault with
  | none => (fs, .error .db)
  | some found =>
    match fs found with
    | .file (.database _ data) => (fs.put found (.file (.database key data)), .ok ())
    | _ => (fs, .error .db)

def draw (f : Choice → α) : Program δ α := act fun c fs => (fs, .ok (f c))

/-! Create, open with the lazy migration, and the changes of credentials. Key derivation is a
pure result. -/

variable [Inhabited δ]

/-- An open handle: the key it holds and the data it reads. -/
structure Vesta (δ : Type) where
  key : Key
  data : δ

def stripLink (name : Name) : Program δ Unit := do
  let link ← Script.look fun fs => fs.isLink name
  if link then removeFile name else pure ()

def removeOrphans : Bool × Bool → Program δ Unit
  | (true, true) => throw .alreadyExists
  | (true, false) => do
    removeFile .vault
    discard .wal
    discard .shm
  | (false, true) => removeFile .sidecar
  | (false, false) => pure ()

def preparePathsForCreate : Program δ Unit := do
  stripLink .vault
  stripLink .sidecar
  let found ← Script.look fun fs => (fs.present .vault, fs.present .sidecar)
  removeOrphans found

/-- `Vesta::create`. -/
def create (passphrase : Passphrase) (params : KdfParams) : Program δ (Vesta δ) := do
  preparePathsForCreate
  let dek ← draw fun c => Key.random c.key
  let salt ← draw fun c => c.salt
  let slotKey ← Script.ofExcept (deriveKey passphrase salt params)
  let data ← openKeyed .vault dek
  atomicWriteJson (.v2 (.fresh ⟨params, salt, wrap slotKey dek .password⟩)) .sidecar
  pure ⟨dek, data⟩

/-- The key a passphrase takes out of a password slot. -/
def unlockSlot (slot : KeySlot) (passphrase : Passphrase) : Result (Option Key) := do
  let slotKey ← deriveKey passphrase slot.salt slot.kdfParams
  pure (unwrap slotKey slot.wrap .password)

def openV2Unlocked : Option Key → Program δ (Vesta δ)
  | none => throw .wrongPassphrase
  | some dek => do
    let data ← openKeyed .vault dek
    discard .staged
    pure ⟨dek, data⟩

def openV2 (passphrase : Passphrase) (info : MetaV2) : Program δ (Vesta δ) := do
  let dek ← Script.ofExcept (unlockSlot info.slots.password passphrase)
  openV2Unlocked dek

def migrateV1ToV2 (passphrase : Passphrase) (v1 : MetaV1) (data : δ) : Program δ (Vesta δ) := do
  let dek ← draw fun c => Key.random c.key
  let salt ← draw fun c => c.salt
  let slot ← Script.ofExcept (resealPasswordSlot dek passphrase v1.kdfParams.floored salt)
  atomicWriteJson (.v2 (.fresh slot)) .staged
  rekey dek
  rename .staged .sidecar
  pure ⟨dek, data⟩

/-- Commit the staged sidecar if its key opens the database. -/
def commitStaged (key : Key) : Result δ → Program δ (Option (Vesta δ))
  | .error _ => pure none
  | .ok data => do
    rename .staged .sidecar
    pure (some ⟨key, data⟩)

def tryStaged : Option Key → Program δ (Option (Vesta δ))
  | none => pure none
  | some key => do
    let opened ← (openKeyed .vault key).attempt
    commitStaged key opened

def recoverFrom (passphrase : Passphrase) : StoredMeta → Program δ (Option (Vesta δ))
  | .v2 info => do
    let dek ← Script.ofExcept (unlockSlot info.slots.password passphrase)
    tryStaged dek
  | .v1 info => do
    let key ← Script.ofExcept (deriveKey passphrase info.salt info.kdfParams)
    tryStaged (some key)

def recoverInterruptedMigration (passphrase : Passphrase) : Program δ (Option (Vesta δ)) := do
  let staged ← Script.look fun fs => fs.present .staged
  if staged then do
    let info ← readMeta .staged
    recoverFrom passphrase info
  else pure none

def orWrongPassphrase : Option (Vesta δ) → Program δ (Vesta δ)
  | some handle => pure handle
  | none => throw .wrongPassphrase

def openV1Keyed (passphrase : Passphrase) (info : MetaV1) : Result δ → Program δ (Vesta δ)
  | .ok data => do
    discard .staged
    migrateV1ToV2 passphrase info data
  | .error .wrongPassphrase => do
    let recovered ← recoverInterruptedMigration passphrase
    orWrongPassphrase recovered
  | .error e => throw e

def openStored (passphrase : Passphrase) : StoredMeta → Program δ (Vesta δ)
  | .v2 info => openV2 passphrase info
  | .v1 info => do
    let key ← Script.ofExcept (deriveKey passphrase info.salt info.kdfParams)
    let opened ← (openKeyed .vault key).attempt
    openV1Keyed passphrase info opened

/-- `Vesta::open`. -/
def openVesta (passphrase : Passphrase) : Program δ (Vesta δ) := do
  let info ← readMeta .sidecar
  openStored passphrase info

def requireV2 : StoredMeta → Result MetaV2
  | .v2 info => pure info
  | .v1 _ => throw (.metaInvalid
      "vault is still in legacy v1 format; reopen with the passphrase to migrate")

def readV2Meta : Program δ MetaV2 := do
  let info ← readMeta .sidecar
  Script.ofExcept (requireV2 info)

structure RotationInputs where
  dek : Key
  passwordSlot : KeySlot

structure SetPassphraseInputs where
  dek : Key
  params : KdfParams

structure RecoveryEnrollInputs where
  dek : Key

structure RotationPlan where
  newPasswordSlot : KeySlot

def rotationInputs (key : Key) : Program δ RotationInputs := do
  let info ← readV2Meta
  pure ⟨key, info.slots.password⟩

def planRotation (inputs : RotationInputs) (old new : Passphrase) (salt : Salt) :
    Result RotationPlan := do
  let unwrapped ← unlockSlot inputs.passwordSlot old
  Checked.ensure (unwrapped = some inputs.dek) Error.wrongPassphrase
  let slot ← resealPasswordSlot inputs.dek new inputs.passwordSlot.kdfParams salt
  pure ⟨slot⟩

def applyRotation (plan : RotationPlan) : Program δ Unit := do
  let info ← readV2Meta
  atomicWriteJson (.v2 ⟨{ info.slots with password := plan.newPasswordSlot }⟩) .sidecar

def setPassphraseInputs (key : Key) : Program δ SetPassphraseInputs := do
  let info ← readV2Meta
  pure ⟨key, info.slots.password.kdfParams⟩

def planSetPassphrase (inputs : SetPassphraseInputs) (new : Passphrase) (salt : Salt) :
    Result RotationPlan := do
  let slot ← resealPasswordSlot inputs.dek new inputs.params salt
  pure ⟨slot⟩

def recoveryEnrollInputs (key : Key) : RecoveryEnrollInputs := ⟨key⟩

/-- The code and the salt are the ones it draws. -/
def planEnrollRecovery (inputs : RecoveryEnrollInputs) (params : KdfParams) (code : RecoveryCode)
    (salt : Salt) : Result (RecoveryCode × KeySlot) := do
  let slotKey ← deriveKeyFromBytes code.bytes.toList salt params
  pure (code, ⟨params, salt, wrap slotKey inputs.dek .recovery⟩)

def applyEnrollRecovery (slot : KeySlot) : Program δ Unit := do
  let info ← readV2Meta
  atomicWriteJson (.v2 ⟨{ info.slots with recovery := some slot }⟩) .sidecar

def removeRecovery : Program δ Unit := do
  let info ← readV2Meta
  Script.ofExcept (Checked.ensure (info.slots.recovery ≠ none) Error.noRecoverySlot)
  atomicWriteJson (.v2 ⟨{ info.slots with recovery := none }⟩) .sidecar

def recoverySlot : StoredMeta → Result KeySlot
  | .v1 _ => throw .noRecoverySlot
  | .v2 info =>
    match info.slots.recovery with
    | none => throw .noRecoverySlot
    | some slot => pure slot

/-- The key a recovery code takes out of its slot. -/
def unlockRecovery (slot : KeySlot) (code : RecoveryCode) : Result Key := do
  let slotKey ← deriveKeyFromBytes code.bytes.toList slot.salt slot.kdfParams
  match unwrap slotKey slot.wrap .recovery with
  | some dek => pure dek
  | none => throw .wrongRecoveryCode

def openWithRecovery (code : RecoveryCode) : Program δ (Vesta δ) := do
  let info ← readMeta .sidecar
  let slot ← Script.ofExcept (recoverySlot info)
  let dek ← Script.ofExcept (unlockRecovery slot code)
  let data ← openKeyed .vault dek
  pure ⟨dek, data⟩

end TerrapiVault.Vault
