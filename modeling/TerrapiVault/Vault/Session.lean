import TerrapiVault.Vault.Opening
import Mathlib.Logic.Relation

/-! A vault in use. Handles, snapshots and plans are values the caller keeps: a plan may be
made early and applied late, through any handle, after any other change. Every command
runs under a stream of choices and may be cut short. -/
namespace TerrapiVault.Vault
open CrashLogic

variable {δ : Type}

/-- `last`, `setting`, `applied` and `code` are history: the passphrase last used with
success, the ones being set since, the one of the last password plan applied, and the code
of the last enrolment applied and not removed. -/
structure World (δ : Type) where
  files : Files δ
  handles : List Key
  rotations : List RotationInputs
  resets : List SetPassphraseInputs
  plans : List (Passphrase × RotationPlan)
  enrolments : List RecoveryEnrollInputs
  slots : List (RecoveryCode × KeySlot)
  last : Passphrase
  setting : List Passphrase
  applied : Passphrase
  code : Option RecoveryCode

inductive Command where
  | openVesta (passphrase : Passphrase)
  | openWithRecovery (code : RecoveryCode)
  | lock (handle : Key)
  | rotationInputs (handle : Key)
  | planRotation (inputs : RotationInputs) (old new : Passphrase)
  | setPassphraseInputs (handle : Key)
  | planSetPassphrase (inputs : SetPassphraseInputs) (new : Passphrase)
  | applyRotation (handle : Key) (passphrase : Passphrase) (plan : RotationPlan)
  | recoveryEnrollInputs (handle : Key)
  | planEnrollRecovery (inputs : RecoveryEnrollInputs) (params : KdfParams)
  | applyEnrollRecovery (handle : Key) (code : RecoveryCode) (slot : KeySlot)
  | removeRecovery (handle : Key)

/-- What a command works on is at hand. -/
def World.Holds (w : World δ) : Command → Prop
  | .openVesta _ => True
  | .openWithRecovery _ => True
  | .lock handle => handle ∈ w.handles
  | .rotationInputs handle => handle ∈ w.handles
  | .planRotation inputs _ _ => inputs ∈ w.rotations
  | .setPassphraseInputs handle => handle ∈ w.handles
  | .planSetPassphrase inputs _ => inputs ∈ w.resets
  | .applyRotation handle passphrase plan => handle ∈ w.handles ∧ (passphrase, plan) ∈ w.plans
  | .recoveryEnrollInputs handle => handle ∈ w.handles
  | .planEnrollRecovery inputs _ => inputs ∈ w.enrolments
  | .applyEnrollRecovery handle code slot => handle ∈ w.handles ∧ (code, slot) ∈ w.slots
  | .removeRecovery handle => handle ∈ w.handles

/-- The answer of a program that ran to its end without an error. -/
def succeeded {α : Type} (outcome : Outcome (Files δ) (Result α)) : Option α :=
  match outcome.value? with
  | some (.ok a) => some a
  | _ => none

def World.unlocked (w : World δ) (files : Files δ) (passphrase : Passphrase) :
    Option (Vesta δ) → World δ
  | none => { w with files }
  | some handle =>
    { w with files, handles := handle.key :: w.handles, last := passphrase, setting := [] }

def World.recovered (w : World δ) (files : Files δ) : Option (Vesta δ) → World δ
  | none => { w with files }
  | some handle => { w with files, handles := handle.key :: w.handles }

def World.rotated (w : World δ) (files : Files δ) (passphrase : Passphrase) : Option Unit → World δ
  | none => { w with files, setting := passphrase :: w.setting }
  | some _ => { w with files, last := passphrase, setting := [], applied := passphrase }

def World.planned (w : World δ) (passphrase : Passphrase) : Result RotationPlan → World δ
  | .ok plan => { w with plans := (passphrase, plan) :: w.plans }
  | .error _ => w

def World.enrolled (w : World δ) (files : Files δ) (code : Option RecoveryCode) :
    Option Unit → World δ
  | none => { w with files }
  | some _ => { w with files, code }

def World.next [Inhabited δ] (w : World δ) (choices : ℕ → Choice) : Command → World δ
  | .openVesta passphrase =>
    let outcome := Vault.openVesta passphrase choices 0 w.files
    w.unlocked outcome.final passphrase (succeeded outcome)
  | .openWithRecovery code =>
    let outcome := Vault.openWithRecovery code choices 0 w.files
    w.recovered outcome.final (succeeded outcome)
  | .lock handle => { w with handles := w.handles.erase handle }
  | .rotationInputs handle =>
    match succeeded (Vault.rotationInputs handle choices 0 w.files) with
    | some inputs => { w with rotations := inputs :: w.rotations }
    | none => w
  | .planRotation inputs old new => w.planned new (Vault.planRotation inputs old new (choices 0).salt)
  | .setPassphraseInputs handle =>
    match succeeded (Vault.setPassphraseInputs handle choices 0 w.files) with
    | some inputs => { w with resets := inputs :: w.resets }
    | none => w
  | .planSetPassphrase inputs new =>
    w.planned new (Vault.planSetPassphrase inputs new (choices 0).salt)
  | .applyRotation _ passphrase plan =>
    let outcome := Vault.applyRotation plan choices 0 w.files
    w.rotated outcome.final passphrase (succeeded outcome)
  | .recoveryEnrollInputs handle =>
    { w with enrolments := Vault.recoveryEnrollInputs handle :: w.enrolments }
  | .planEnrollRecovery inputs params =>
    match Vault.planEnrollRecovery inputs params (choices 0).code (choices 0).salt with
    | .ok made => { w with slots := made :: w.slots }
    | .error _ => w
  | .applyEnrollRecovery _ code slot =>
    let outcome := Vault.applyEnrollRecovery slot choices 0 w.files
    w.enrolled outcome.final (some code) (succeeded outcome)
  | .removeRecovery _ =>
    let outcome := Vault.removeRecovery choices 0 w.files
    w.enrolled outcome.final none (succeeded outcome)

/-- Runs whose commands and choices all meet a condition. -/
inductive Reaches [Inhabited δ] (guard : World δ → Command → (ℕ → Choice) → Prop) (start : World δ) : World δ → Prop
  | refl : Reaches guard start start
  | tail {w : World δ} (before : Reaches guard start w) (command : Command) (choices : ℕ → Choice)
      (held : w.Holds command) (meets : guard w command choices) :
      Reaches guard start (w.next choices command)

theorem Reaches.invariant [Inhabited δ] {guard : World δ → Command → (ℕ → Choice) → Prop} {start w : World δ}
    {inv : World δ → Prop} (reached : Reaches guard start w) (initially : inv start)
    (kept : ∀ w command choices, inv w → w.Holds command → guard w command choices →
      inv (w.next choices command)) : inv w := by
  induction reached with
  | refl => exact initially
  | tail before command choices held meets ih => exact kept _ command choices ih held meets

variable {changed : List Name} {fs fs' : Files δ} {name : Name}

section Writing

variable {allow : Choice → Prop} {crash : Files δ → Prop} {fail : Error → Files δ → Prop}

/-- Nothing but `changed` differs from `fs`. -/
def Files.Apart (changed : List Name) (fs fs' : Files δ) : Prop :=
  ∀ name, name ∉ changed → fs' name = fs name

theorem Files.Apart.put (apart : Files.Apart changed fs fs') (inside : name ∈ changed)
    (entry : Entry δ) : Files.Apart changed fs (fs'.put name entry) := by
  intro other outside
  have ne : other ≠ name := fun same => outside (same ▸ inside)
  rw [Files.put_other _ _ ne]
  exact apart other outside

theorem Files.Apart.mono {changed' : List Name} (apart : Files.Apart changed fs fs')
    (more : changed ⊆ changed') : Files.Apart changed' fs fs' :=
  fun name outside => apart name fun inside => outside (more inside)

/-- The file being written holds `entry`, everything else is as in `fs`. -/
def Files.Wrote (name : Name) (entry : Entry δ) (fs fs' : Files δ) : Prop :=
  fs' name = entry ∧ Files.Apart [name] fs fs'

theorem createNew_spec (stops : Halts allow crash (Files.Wrote name (.file .empty) fs)) :
    Triple allow crash (Files.Wrote name .absent fs) (createNew name)
      (fun _ => Files.Wrote name (.file .empty) fs) fail := by
  have wrote (s : Files δ) (holds : Files.Wrote name .absent fs s) :
      Files.Wrote name (.file .empty) fs (s.put name (.file .empty)) :=
    ⟨s.put_same _ _, holds.2.put (List.mem_singleton_self _) _⟩
  refine act_spec ?_ ?_ ?_
  · intro c s allowed holds stop
    simpa [holds.1] using stops c _ allowed stop (wrote s holds)
  · intro c s a _ holds _
    simpa [holds.1] using wrote s holds
  · intro c s e _ holds failed
    simp [holds.1] at failed

theorem writeAll_spec {info : StoredMeta} {entry : Entry δ}
    (stops : Halts allow crash (Files.Wrote name (.file (.sidecar info)) fs)) :
    Triple allow crash (Files.Wrote name entry fs) (writeAll name info)
      (fun _ => Files.Wrote name (.file (.sidecar info)) fs) fail := by
  have wrote (s : Files δ) (holds : Files.Wrote name entry fs s) :
      Files.Wrote name (.file (.sidecar info)) fs (s.put name (.file (.sidecar info))) :=
    ⟨s.put_same _ _, holds.2.put (List.mem_singleton_self _) _⟩
  exact act_spec (fun c s allowed holds stop => stops c _ allowed stop (wrote s holds))
    (fun _ s _ _ holds _ => wrote s holds) (fun _ _ _ _ _ failed => nomatch failed)

theorem rename_spec {source target : Name} {content : Content δ} {pre post : Files δ → Prop}
    (file : ∀ s, pre s → s source = .file content)
    (moved : ∀ s, pre s → post ((s.put source .absent).put target (.file content)))
    (stops : Halts allow crash post) :
    Triple allow crash pre (rename source target) (fun _ => post) fail := by
  refine act_spec ?_ ?_ ?_
  · intro c s allowed holds stop
    simpa [file s holds] using stops c _ allowed stop (moved s holds)
  · intro c s a _ holds _
    simpa [file s holds] using moved s holds
  · intro c s e _ holds failed
    simp [file s holds] at failed

/-- The metadata was renamed over the file, from its draft. -/
abbrev Files.Rewrote (name : Name) (info : StoredMeta) (fs fs' : Files δ) : Prop :=
  fs' name = .file (.sidecar info) ∧ Files.Apart [name, name.tmp] fs fs'

theorem atomicWriteJson_spec (info : StoredMeta) (fs : Files δ)
    (before : Halts allow crash (Files.Apart [name.tmp] fs))
    (after : Halts allow crash (Files.Rewrote name info fs)) :
    Triple allow crash (Files.Apart [name.tmp] fs) (atomicWriteJson info name)
      (fun _ => Files.Rewrote name info fs) fail := by
  have part (entry : Entry δ) : Halts allow crash (Files.Wrote name.tmp entry fs) :=
    fun c s allowed stop holds => before c s allowed stop holds.2
  refine Triple.bind (discard_spec (fun s holds => ?_) (part .absent)) fun _ => ?_
  · exact ⟨s.put_same _ _, holds.put (List.mem_singleton_self _) _⟩
  refine Triple.bind (createNew_spec (part _)) fun _ => ?_
  refine Triple.bind (writeAll_spec (part _)) fun _ => ?_
  refine rename_spec (fun s holds => holds.1) (fun s holds => ?_) after
  refine ⟨Files.put_same _ _ _, ?_⟩
  have wider : Files.Apart [name, name.tmp] fs s := holds.2.mono (by simp)
  exact (wider.put (by simp) _).put (by simp) _

end Writing

/-- A v2 vault whose password slot wraps the key of its database for the passphrase. -/
structure PasswordVault (dek : Key) (data : δ) (passphrase : Passphrase) (slots : KeySlots)
    (fs : Files δ) : Prop where
  vault : fs .vault = .file (.database dek data)
  sidecar : fs .sidecar = .file (.sidecar (.v2 ⟨slots⟩))
  password : slots.password.For .password passphrase dek
  recoverable : ∀ slot ∈ slots.recovery, slot.kdfParams.Bounded

namespace PasswordVault

variable {dek : Key} {data : δ} {passphrase : Passphrase} {slots : KeySlots} {fs : Files δ}

section

variable (v : PasswordVault dek data passphrase slots fs)
include v

theorem bounded : (MetaV2.mk slots).Bounded :=
  ⟨v.password.usable.bounded, v.recoverable⟩

theorem database : ∃ at', fs.located .vault = some at' ∧ fs at' = .file (.database dek data) :=
  ⟨.vault, Files.located_of_file v.vault, v.vault⟩

theorem apart (same : Files.Apart changed fs fs') (vault : Name.vault ∉ changed)
    (sidecar : Name.sidecar ∉ changed) : PasswordVault dek data passphrase slots fs' :=
  ⟨(same _ vault).trans v.vault, (same _ sidecar).trans v.sidecar, v.password, v.recoverable⟩

theorem rewritten {slots' : KeySlots} {passphrase' : Passphrase}
    (written : Files.Rewrote .sidecar (.v2 ⟨slots'⟩) fs fs')
    (password : slots'.password.For .password passphrase' dek)
    (recoverable : ∀ slot ∈ slots'.recovery, slot.kdfParams.Bounded) :
    PasswordVault dek data passphrase' slots' fs' :=
  ⟨(written.2 _ (by decide)).trans v.vault, written.1, password, recoverable⟩

end

section Specs

variable {allow : Choice → Prop} {crash : Files δ → Prop} {fail : Error → Files δ → Prop}

section

variable (v : PasswordVault dek data passphrase slots fs)
include v

theorem readMeta_eq :
    Triple allow crash (· = fs) (readMeta .sidecar)
      (fun r s => r = .v2 ⟨slots⟩ ∧ s = fs) fail :=
  readMeta_spec v.bounded fun _ same => same ▸ Files.read_of_file v.sidecar

theorem readV2Meta_eq :
    Triple allow crash (· = fs) readV2Meta (fun r s => r = ⟨slots⟩ ∧ s = fs) fail :=
  Triple.known v.readMeta_eq (Triple.checked rfl)

/-- The slots `change` makes of the present ones are committed, or nothing is. -/
theorem change_spec (change : KeySlots → KeySlots)
    (before : Halts allow crash (Files.Apart [Name.sidecar.tmp] fs))
    (after : Halts allow crash (Files.Rewrote .sidecar (.v2 ⟨change slots⟩) fs)) :
    Triple allow crash (· = fs)
      (do
        let info ← readV2Meta
        atomicWriteJson (.v2 ⟨change info.slots⟩) .sidecar)
      (fun _ => Files.Rewrote .sidecar (.v2 ⟨change slots⟩) fs) fail := by
  refine Triple.known v.readV2Meta_eq ?_
  exact (atomicWriteJson_spec _ fs before after).weaken fun s same _ _ => by rw [same]

theorem removeRecovery_spec (enrolled : slots.recovery ≠ none)
    (before : Halts allow crash (Files.Apart [Name.sidecar.tmp] fs))
    (after : Halts allow crash (Files.Rewrote .sidecar (.v2 ⟨{ slots with recovery := none }⟩) fs)) :
    Triple allow crash (· = fs) removeRecovery
      (fun _ => Files.Rewrote .sidecar (.v2 ⟨{ slots with recovery := none }⟩) fs) fail := by
  refine Triple.known v.readV2Meta_eq ?_
  refine Triple.known (Triple.checked (Checked.ensure_of _ enrolled)) ?_
  exact (atomicWriteJson_spec _ fs before after).weaken fun s same _ _ => by rw [same]

theorem removeRecovery_none (missing : slots.recovery = none) :
    Triple allow crash (· = fs) removeRecovery (fun _ _ => False)
      (fun e s => e = .noRecoverySlot ∧ s = fs) := by
  refine Triple.known v.readV2Meta_eq ?_
  exact refused_spec (Checked.ensure_not _ fun enrolled => enrolled missing)

end

variable [Inhabited δ]

theorem openVesta_right (v : PasswordVault dek data passphrase slots fs)
    (opened : Halts allow crash (Files.Apart [.staged] fs)) :
    Triple allow crash (· = fs) (openVesta passphrase)
      (fun handle s => handle = ⟨dek, data⟩ ∧ Files.Apart [.staged] fs s) fail := by
  have unlocked : unlockSlot slots.password passphrase = .ok (some dek) := by
    rw [v.password.unlock, if_pos rfl]
  refine Triple.known v.readMeta_eq ?_
  refine Triple.known (Triple.checked unlocked) ?_
  refine Triple.known (openKeyed_spec (fun s same => same ▸ v.database) ?_) ?_
  · exact fun c s allowed stop same => opened c s allowed stop fun _ _ => by rw [same]
  refine Triple.bind (discard_spec (fun s same => ?_) opened) fun _ => ?_
  · exact Files.Apart.put (fun _ _ => by rw [same]) (List.mem_singleton_self _) _
  · exact Triple.pure _ fun s holds => ⟨rfl, holds⟩

theorem openVesta_wrong (v : PasswordVault dek data passphrase slots fs) {other : Passphrase}
    (wrong : other ≠ passphrase) :
    Triple allow crash (· = fs) (openVesta other) (fun _ _ => False)
      (fun e s => e = .wrongPassphrase ∧ s = fs) := by
  have locked : unlockSlot slots.password other = .ok none := by
    rw [v.password.unlock, if_neg (Ne.symm wrong)]
  refine Triple.known v.readMeta_eq ?_
  refine Triple.known (Triple.checked locked) ?_
  exact Triple.throw _ fun s same => ⟨rfl, same⟩

end Specs

end PasswordVault

end TerrapiVault.Vault
