import TerrapiVault.Vault.Session

/-! The key slots of a v2 vault over every order of plans and changes. Each slot wraps the
key of the database, and each credential opens the vault exactly while its slot stands. -/
namespace TerrapiVault.Vault
open CrashLogic

variable {δ : Type}

/-- The recovery slot belongs to the code, and there is one exactly if there is a code. -/
def RecoveryFor (dek : Key) : Option KeySlot → Option RecoveryCode → Prop
  | none, none => True
  | some slot, some code => slot.For .recovery code.bytes.toList dek
  | _, _ => False

/-- A v2 vault of the passphrase and the code, as `create` and the changes leave it. -/
structure VaultV2 (dek : Key) (data : δ) (passphrase : Passphrase) (code : Option RecoveryCode)
    (slots : KeySlots) (fs : Files δ) : Prop where
  vault : fs .vault = .file (.database dek data)
  sidecar : fs .sidecar = .file (.sidecar (.v2 ⟨slots⟩))
  password : slots.password.For .password passphrase dek
  recovery : RecoveryFor dek slots.recovery code

namespace VaultV2

variable {dek : Key} {data : δ} {passphrase : Passphrase} {code : Option RecoveryCode}
  {slots : KeySlots} {fs : Files δ}

theorem base (v : VaultV2 dek data passphrase code slots fs) :
    PasswordVault dek data passphrase slots fs := by
  refine ⟨v.vault, v.sidecar, v.password, fun slot there => ?_⟩
  have made := v.recovery
  rw [Option.mem_def.mp there] at made
  match code, made with
  | some code, made => exact made.usable.bounded

theorem apart (v : VaultV2 dek data passphrase code slots fs) {changed : List Name} {fs' : Files δ}
    (same : Files.Apart changed fs fs') (vault : Name.vault ∉ changed)
    (sidecar : Name.sidecar ∉ changed) : VaultV2 dek data passphrase code slots fs' :=
  ⟨(same _ vault).trans v.vault, (same _ sidecar).trans v.sidecar, v.password, v.recovery⟩

theorem rewritten (v : VaultV2 dek data passphrase code slots fs) {slots' : KeySlots}
    {passphrase' : Passphrase} {code' : Option RecoveryCode} {fs' : Files δ}
    (written : Files.Rewrote .sidecar (.v2 ⟨slots'⟩) fs fs')
    (password : slots'.password.For .password passphrase' dek)
    (recovery : RecoveryFor dek slots'.recovery code') :
    VaultV2 dek data passphrase' code' slots' fs' :=
  ⟨(written.2 _ (by decide)).trans v.vault, written.1, password, recovery⟩

section Specs

variable {allow : Choice → Prop} {crash : Files δ → Prop} {fail : Error → Files δ → Prop}
  [Inhabited δ]

theorem openWithRecovery_right (v : VaultV2 dek data passphrase code slots fs) {used : RecoveryCode}
    (enrolled : code = some used) (opened : Halts allow crash fun s => s = fs) :
    Triple allow crash (· = fs) (openWithRecovery used)
      (fun handle s => handle = ⟨dek, data⟩ ∧ s = fs) fail := by
  subst enrolled
  obtain ⟨slot, there, made⟩ : ∃ slot, slots.recovery = some slot ∧
      slot.For .recovery used.bytes.toList dek := by
    have made := v.recovery
    cases there : slots.recovery with
    | none => rw [there] at made; exact made.elim
    | some slot => rw [there] at made; exact ⟨slot, rfl, made⟩
  refine Triple.known v.base.readMeta_eq ?_
  refine Triple.known (Triple.checked (a := slot) (by simp [recoverySlot, there])) ?_
  refine Triple.known (Triple.checked (a := dek) (by rw [made.unlockRecovery, if_pos rfl])) ?_
  refine Triple.known (openKeyed_spec (fun s same => same ▸ v.base.database) opened) ?_
  exact Triple.pure _ fun s same => ⟨rfl, same⟩

/-- What `open_with_recovery` reports for a code that is not enrolled. -/
def recoveryRefusal : Option RecoveryCode → Error
  | none => .noRecoverySlot
  | some _ => .wrongRecoveryCode

theorem openWithRecovery_wrong (v : VaultV2 dek data passphrase code slots fs) {used : RecoveryCode}
    (wrong : code ≠ some used) :
    Triple allow crash (· = fs) (openWithRecovery used) (fun _ _ => False)
      (fun e s => e = recoveryRefusal code ∧ s = fs) := by
  have made := v.recovery
  refine Triple.known v.base.readMeta_eq ?_
  match code, there : slots.recovery with
  | none, none => exact refused_spec (by simp [recoverySlot, there, recoveryRefusal])
  | none, some slot => rw [there] at made; exact made.elim
  | some other, none => rw [there] at made; exact made.elim
  | some other, some slot =>
    rw [there] at made
    refine Triple.known (Triple.checked (a := slot) (by simp [recoverySlot, there])) ?_
    refine refused_spec ?_
    rw [made.unlockRecovery, if_neg fun same => wrong (congrArg some same)]
    rfl

end Specs

end VaultV2

/-- Every key, snapshot and plan at hand is of the one database key. -/
structure Keyed (dek : Key) (data : δ) (w : World δ) : Prop where
  vault : ∃ slots, VaultV2 dek data w.applied w.code slots w.files
  handles : ∀ key ∈ w.handles, key = dek
  rotations : ∀ inputs ∈ w.rotations, inputs.dek = dek ∧ inputs.passwordSlot.kdfParams.Usable
  resets : ∀ inputs ∈ w.resets, inputs.dek = dek ∧ inputs.params.Usable
  plans : ∀ made ∈ w.plans, made.2.newPasswordSlot.For .password made.1 dek
  enrolments : ∀ inputs ∈ w.enrolments, inputs.dek = dek
  slots : ∀ made ∈ w.slots, made.2.For .recovery made.1.bytes.toList dek

/-- Enrolments stay within the bounds a sidecar is read with. -/
def Command.Bounded : Command → Prop
  | .planEnrollRecovery _ params => params.Bounded
  | _ => True

/-- Nothing is cut short and every enrolment is bounded. -/
structure Undisturbed (w : World δ) (command : Command) (choices : ℕ → Choice) : Prop where
  calm : ∀ n, Calm (choices n)
  bounded : command.Bounded

theorem succeeded_of {α : Type} {outcome : Outcome (Files δ) (Result α)} {a : α}
    (value : outcome.value? = some (.ok a)) : succeeded outcome = some a := by
  rw [succeeded, value]

theorem succeeded_failed {α : Type} {outcome : Outcome (Files δ) (Result α)} {e : Error}
    (value : outcome.value? = some (.error e)) : succeeded outcome = none := by
  rw [succeeded, value]

section Runs

variable {α : Type} {m : Program δ α} {fs : Files δ} {choices : ℕ → Choice}

theorem succeeds_with {post : α → Files δ → Prop}
    (spec : Triple Calm (fun _ => False) (· = fs) m post (fun _ _ => False))
    (calm : ∀ n, Calm (choices n)) :
    ∃ a, succeeded (m choices 0 fs) = some a ∧ post a (m choices 0 fs).final := by
  obtain ⟨a, value, holds⟩ := spec.returns (fun _ h => h) (fun _ _ h => h) calm 0 rfl
  exact ⟨a, succeeded_of value, holds⟩

theorem fails_with {fail : Error → Files δ → Prop}
    (spec : Triple Calm (fun _ => False) (· = fs) m (fun _ _ => False) fail)
    (calm : ∀ n, Calm (choices n)) :
    ∃ e, (m choices 0 fs).value? = some (.error e) ∧ fail e (m choices 0 fs).final := by
  obtain ⟨_, _, never⟩ | failed := spec.ends (fun _ h => h) calm 0 rfl
  · exact never.elim
  · exact failed

end Runs

/-- The passphrase slot the command commits, if it commits one. -/
def Command.setsPassphrase : Command → Bool
  | .applyRotation .. => true
  | _ => false

def Command.setsRecovery : Command → Bool
  | .applyEnrollRecovery .. => true
  | .removeRecovery _ => true
  | _ => false

/-- The slots after a command, and which of them it left alone. -/
structure Changes (command : Command) (slots slots' : KeySlots) : Prop where
  password : command.setsPassphrase = false → slots'.password = slots.password
  recovery : command.setsRecovery = false → slots'.recovery = slots.recovery

theorem Changes.refl (command : Command) (slots : KeySlots) : Changes command slots slots :=
  ⟨fun _ => rfl, fun _ => rfl⟩

variable {handle : Key}

section Kept

variable [Inhabited δ] {dek : Key} {data : δ} {w : World δ} {slots : KeySlots}
  {choices : ℕ → Choice}

/-- What a command does to the vault, and that all at hand stays of its key. -/
def Keeps (dek : Key) (data : δ) (w : World δ) (slots : KeySlots) (choices : ℕ → Choice)
    (command : Command) : Prop :=
  Keyed dek data (w.next choices command) ∧
    ∃ slots', (w.next choices command).files .sidecar = .file (.sidecar (.v2 ⟨slots'⟩)) ∧
      Changes command slots slots'

variable (keyed : Keyed dek data w) (vault : VaultV2 dek data w.applied w.code slots w.files)
  (calm : ∀ n, Calm (choices n))
include keyed vault calm

theorem keeps_openVesta (passphrase : Passphrase) :
    Keeps dek data w slots choices (.openVesta passphrase) := by
  by_cases right : passphrase = w.applied
  · subst right
    obtain ⟨handle, value, rfl, apart⟩ := succeeds_with (vault.base.openVesta_right Halts.calm) calm
    have vault' := vault.apart apart (by decide) (by decide)
    simp only [Keeps, World.next, value, World.unlocked]
    refine ⟨{ keyed with vault := ⟨slots, vault'⟩, handles := ?_ }, slots, vault'.sidecar, .refl _ _⟩
    exact List.forall_mem_cons.mpr ⟨rfl, keyed.handles⟩
  · obtain ⟨e, value, rfl, same⟩ := fails_with (vault.base.openVesta_wrong right) calm
    simp only [Keeps, World.next, succeeded_failed value, World.unlocked, same]
    exact ⟨{ keyed with vault := ⟨slots, vault⟩ }, slots, vault.sidecar, .refl _ _⟩

theorem keeps_openWithRecovery (code : RecoveryCode) :
    Keeps dek data w slots choices (.openWithRecovery code) := by
  by_cases right : w.code = some code
  · obtain ⟨handle, value, rfl, same⟩ :=
      succeeds_with (vault.openWithRecovery_right right Halts.calm) calm
    simp only [Keeps, World.next, value, World.recovered, same]
    refine ⟨{ keyed with vault := ⟨slots, vault⟩, handles := ?_ }, slots, vault.sidecar, .refl _ _⟩
    exact List.forall_mem_cons.mpr ⟨rfl, keyed.handles⟩
  · obtain ⟨e, value, rfl, same⟩ := fails_with (vault.openWithRecovery_wrong right) calm
    simp only [Keeps, World.next, succeeded_failed value, World.recovered, same]
    exact ⟨{ keyed with vault := ⟨slots, vault⟩ }, slots, vault.sidecar, .refl _ _⟩

theorem keeps_applyRotation {passphrase : Passphrase} {plan : RotationPlan}
    (made : plan.newPasswordSlot.For .password passphrase dek) :
    Keeps dek data w slots choices (.applyRotation handle passphrase plan) := by
  have spec : Triple Calm (fun _ => False) (· = w.files) (applyRotation plan) _ (fun _ _ => False) :=
    vault.base.change_spec (fun slots => { slots with password := plan.newPasswordSlot }) Halts.calm Halts.calm
  obtain ⟨_, value, written⟩ := succeeds_with spec calm
  have vault' := vault.rewritten written made vault.recovery
  simp only [Keeps, World.next, value, World.rotated]
  exact ⟨{ keyed with vault := ⟨_, vault'⟩ }, _, vault'.sidecar, ⟨nofun, fun _ => rfl⟩⟩

theorem keeps_applyEnrollRecovery {code : RecoveryCode} {slot : KeySlot}
    (made : slot.For .recovery code.bytes.toList dek) :
    Keeps dek data w slots choices (.applyEnrollRecovery handle code slot) := by
  have spec : Triple Calm (fun _ => False) (· = w.files) (applyEnrollRecovery slot) _ (fun _ _ => False) :=
    vault.base.change_spec (fun slots => { slots with recovery := some slot }) Halts.calm Halts.calm
  obtain ⟨_, value, written⟩ := succeeds_with spec calm
  have vault' := vault.rewritten written vault.password (show RecoveryFor dek _ (some code) from made)
  simp only [Keeps, World.next, value, World.enrolled]
  exact ⟨{ keyed with vault := ⟨_, vault'⟩ }, _, vault'.sidecar, ⟨fun _ => rfl, nofun⟩⟩

theorem keeps_removeRecovery (handle : Key) :
    Keeps dek data w slots choices (.removeRecovery handle) := by
  by_cases missing : slots.recovery = none
  · obtain ⟨e, value, rfl, same⟩ := fails_with (vault.base.removeRecovery_none missing) calm
    simp only [Keeps, World.next, succeeded_failed value, World.enrolled, same]
    exact ⟨{ keyed with vault := ⟨slots, vault⟩ }, slots, vault.sidecar, .refl _ _⟩
  · obtain ⟨_, value, written⟩ :=
      succeeds_with (vault.base.removeRecovery_spec missing Halts.calm Halts.calm) calm
    have vault' : VaultV2 dek data w.applied none _ _ :=
      vault.rewritten written vault.password trivial
    simp only [Keeps, World.next, value, World.enrolled]
    exact ⟨{ keyed with vault := ⟨_, vault'⟩ }, _, vault'.sidecar, ⟨fun _ => rfl, nofun⟩⟩

theorem keeps_rotationInputs (mine : handle ∈ w.handles) :
    Keeps dek data w slots choices (.rotationInputs handle) := by
  have spec : Triple Calm (fun _ => False) (· = w.files) (rotationInputs handle)
      (fun inputs _ => inputs = ⟨handle, slots.password⟩) (fun _ _ => False) :=
    Triple.known vault.base.readV2Meta_eq (Triple.pure _ fun _ _ => rfl)
  obtain ⟨inputs, value, rfl⟩ := succeeds_with spec calm
  simp only [Keeps, World.next, value]
  refine ⟨{ keyed with rotations := ?_ }, slots, vault.sidecar, .refl _ _⟩
  exact List.forall_mem_cons.mpr ⟨⟨keyed.handles _ mine, vault.password.usable⟩, keyed.rotations⟩

theorem keeps_setPassphraseInputs (mine : handle ∈ w.handles) :
    Keeps dek data w slots choices (.setPassphraseInputs handle) := by
  have spec : Triple Calm (fun _ => False) (· = w.files) (setPassphraseInputs handle)
      (fun inputs _ => inputs = ⟨handle, slots.password.kdfParams⟩) (fun _ _ => False) :=
    Triple.known vault.base.readV2Meta_eq (Triple.pure _ fun _ _ => rfl)
  obtain ⟨inputs, value, rfl⟩ := succeeds_with spec calm
  simp only [Keeps, World.next, value]
  refine ⟨{ keyed with resets := ?_ }, slots, vault.sidecar, .refl _ _⟩
  exact List.forall_mem_cons.mpr ⟨⟨keyed.handles _ mine, vault.password.usable⟩, keyed.resets⟩

omit calm

theorem keeps_planned {passphrase : Passphrase} {plan : Result RotationPlan} {command : Command}
    (next : w.next choices command = w.planned passphrase plan)
    (made : ∀ made, plan = .ok made → made.newPasswordSlot.For .password passphrase dek) :
    Keeps dek data w slots choices command := by
  simp only [Keeps, next]
  cases plan with
  | error e => exact ⟨keyed, slots, vault.sidecar, .refl _ _⟩
  | ok plan =>
    refine ⟨{ keyed with plans := ?_ }, slots, vault.sidecar, .refl _ _⟩
    exact List.forall_mem_cons.mpr ⟨made plan rfl, keyed.plans⟩

theorem keeps_planRotation {inputs : RotationInputs} (old new : Passphrase)
    (mine : inputs ∈ w.rotations) : Keeps dek data w slots choices (.planRotation inputs old new) := by
  obtain ⟨same, usable⟩ := keyed.rotations _ mine
  refine keeps_planned keyed vault rfl fun made planned => ?_
  simp only [planRotation, run_ok] at planned
  obtain ⟨_, _, _, slot, resealed, rfl⟩ := planned
  exact same ▸ resealPasswordSlot_made usable resealed

theorem keeps_planSetPassphrase {inputs : SetPassphraseInputs} (new : Passphrase)
    (mine : inputs ∈ w.resets) : Keeps dek data w slots choices (.planSetPassphrase inputs new) := by
  obtain ⟨same, usable⟩ := keyed.resets _ mine
  refine keeps_planned keyed vault rfl fun made planned => ?_
  simp only [planSetPassphrase, run_ok] at planned
  obtain ⟨slot, resealed, rfl⟩ := planned
  exact same ▸ resealPasswordSlot_made usable resealed

theorem keeps_planEnrollRecovery {inputs : RecoveryEnrollInputs} {params : KdfParams}
    (mine : inputs ∈ w.enrolments) (bounded : params.Bounded) :
    Keeps dek data w slots choices (.planEnrollRecovery inputs params) := by
  simp only [Keeps, World.next]
  cases planned : planEnrollRecovery inputs params (choices 0).code (choices 0).salt with
  | error e => exact ⟨keyed, slots, vault.sidecar, .refl _ _⟩
  | ok made =>
    refine ⟨{ keyed with slots := ?_ }, slots, vault.sidecar, .refl _ _⟩
    refine List.forall_mem_cons.mpr ⟨?_, keyed.slots⟩
    exact keyed.enrolments _ mine ▸ planEnrollRecovery_made bounded planned

end Kept

section

variable [Inhabited δ] {dek : Key} {data : δ} {w : World δ} {slots : KeySlots}
  {choices : ℕ → Choice}

theorem Keyed.keeps {command : Command} (keyed : Keyed dek data w)
    (vault : VaultV2 dek data w.applied w.code slots w.files) (held : w.Holds command)
    (undisturbed : Undisturbed w command choices) : Keeps dek data w slots choices command := by
  have calm := undisturbed.calm
  cases command with
  | openVesta passphrase => exact keeps_openVesta keyed vault calm passphrase
  | openWithRecovery code => exact keeps_openWithRecovery keyed vault calm code
  | lock handle =>
    refine ⟨{ keyed with handles := fun key there => ?_ }, slots, vault.sidecar, .refl _ _⟩
    exact keyed.handles key (List.mem_of_mem_erase there)
  | rotationInputs handle => exact keeps_rotationInputs keyed vault calm held
  | planRotation inputs old new => exact keeps_planRotation keyed vault old new held
  | setPassphraseInputs handle => exact keeps_setPassphraseInputs keyed vault calm held
  | planSetPassphrase inputs new => exact keeps_planSetPassphrase keyed vault new held
  | applyRotation handle passphrase plan =>
    exact keeps_applyRotation keyed vault calm (keyed.plans _ held.2)
  | recoveryEnrollInputs handle =>
    refine ⟨{ keyed with enrolments := ?_ }, slots, vault.sidecar, .refl _ _⟩
    exact List.forall_mem_cons.mpr ⟨keyed.handles _ held, keyed.enrolments⟩
  | planEnrollRecovery inputs params =>
    exact keeps_planEnrollRecovery keyed vault held undisturbed.bounded
  | applyEnrollRecovery handle code slot =>
    exact keeps_applyEnrollRecovery keyed vault calm (keyed.slots _ held.2)
  | removeRecovery handle => exact keeps_removeRecovery keyed vault calm handle

/-- The slots of the vault and what opens it. -/
structure SlotsSound (dek : Key) (data : δ) (w : World δ) : Prop where
  wraps : ∃ slots, w.files .vault = .file (.database dek data) ∧
    w.files .sidecar = .file (.sidecar (.v2 ⟨slots⟩)) ∧ slots.password.wrap.dek = dek ∧
    (∀ slot ∈ slots.recovery, slot.wrap.dek = dek) ∧
    ∀ command choices, w.Holds command → Undisturbed w command choices →
      ∃ slots', (w.next choices command).files .sidecar = .file (.sidecar (.v2 ⟨slots'⟩)) ∧
        Changes command slots slots'
  opens : Opens w.files w.applied data
  refuses : ∀ passphrase, passphrase ≠ w.applied → ∀ choices : ℕ → Choice, (∀ n, Calm (choices n)) →
    (openVesta passphrase choices 0 w.files).value? = some (.error .wrongPassphrase)
  recovers : ∀ code, w.code = some code → ∀ choices : ℕ → Choice, (∀ n, Calm (choices n)) →
    (openWithRecovery code choices 0 w.files).value? = some (.ok ⟨dek, data⟩)
  unrecoverable : ∀ code, w.code ≠ some code → ∀ choices : ℕ → Choice, (∀ n, Calm (choices n)) →
    (openWithRecovery code choices 0 w.files).value? =
      some (.error (VaultV2.recoveryRefusal w.code))

theorem Keyed.sound (keyed : Keyed dek data w) : SlotsSound dek data w := by
  obtain ⟨slots, vault⟩ := keyed.vault
  refine ⟨⟨slots, vault.vault, vault.sidecar, ?_, ?_, ?_⟩, ?_, ?_, ?_, ?_⟩
  · rw [vault.password.wrapped]
    rfl
  · intro slot there
    have made := vault.recovery
    rw [Option.mem_def.mp there] at made
    cases enrolled : w.code with
    | none => rw [enrolled] at made; exact made.elim
    | some code =>
      rw [enrolled] at made
      rw [made.wrapped]
      rfl
  · exact fun command choices held undisturbed => (keyed.keeps vault held undisturbed).2
  · intro choices calm
    obtain ⟨handle, value, rfl, _⟩ :=
      (vault.base.openVesta_right Halts.calm).returns (fun _ h => h) (fun _ _ h => h) calm 0 rfl
    exact ⟨dek, value⟩
  · intro passphrase wrong choices calm
    obtain ⟨e, value, rfl, _⟩ := fails_with (vault.base.openVesta_wrong wrong) calm
    exact value
  · intro code enrolled choices calm
    obtain ⟨handle, value, rfl, _⟩ :=
      (vault.openWithRecovery_right enrolled Halts.calm).returns (fun _ h => h) (fun _ _ h => h) calm 0 rfl
    exact value
  · intro code wrong choices calm
    obtain ⟨e, value, rfl, _⟩ := fails_with (vault.openWithRecovery_wrong wrong) calm
    exact value

/-- A vault with one open handle and nothing planned. -/
def World.founded (files : Files δ) (dek : Key) (passphrase : Passphrase)
    (code : Option RecoveryCode) : World δ :=
  ⟨files, [dek], [], [], [], [], [], passphrase, [], passphrase, code⟩

/-- Over every order of plans and changes whose enrolments are bounded, every slot wraps the
key of the database and each credential opens the vault exactly while it is the last set. -/
theorem keySlots_sound {files : Files δ} {passphrase : Passphrase} {code : Option RecoveryCode}
    (vault : VaultV2 dek data passphrase code slots files)
    (reached : Reaches Undisturbed (World.founded files dek passphrase code) w) :
    SlotsSound dek data w := by
  have keyed : Keyed dek data w := by
    refine reached.invariant ⟨⟨slots, vault⟩, ?_, nofun, nofun, nofun, nofun, nofun⟩ ?_
    · exact fun key there => List.mem_singleton.mp there
    · intro w command choices keyed held undisturbed
      obtain ⟨_, vault⟩ := keyed.vault
      exact (keyed.keeps vault held undisturbed).1
  exact keyed.sound

end

def sampleWorld : World ℕ :=
  World.founded (sampleFiles (.file (.database sampleDek 7))) sampleDek [1] none

theorem sampleWorld_vault : VaultV2 sampleDek 7 [1] none sampleInfo.slots sampleWorld.files :=
  ⟨rfl, rfl, ⟨⟨by decide, by decide⟩, rfl⟩, trivial⟩

def sampleSlot (params : KdfParams) : KeySlot :=
  ⟨params, zeroSalt,
    wrap (.derived sampleChoice.code.bytes.toList zeroSalt params) sampleDek .recovery⟩

/-- The world after planning an enrolment with the parameters. -/
def sampleEnrolment (params : KdfParams) : World ℕ :=
  { sampleWorld with
    enrolments := [⟨sampleDek⟩], slots := [(sampleChoice.code, sampleSlot params)] }

/-- The world after applying it. -/
def sampleEnrolled (params : KdfParams) : World ℕ :=
  (sampleEnrolment params).next (fun _ => sampleChoice)
    (.applyEnrollRecovery sampleDek sampleChoice.code (sampleSlot params))

theorem sampleEnrolled_reached {guard : World ℕ → Command → (ℕ → Choice) → Prop}
    {params : KdfParams} (accepted : params.Accepted)
    (meets : ∀ w command, (params.Bounded → command.Bounded) → guard w command fun _ => sampleChoice) :
    Reaches guard sampleWorld (sampleEnrolled params) := by
  have made : planEnrollRecovery ⟨sampleDek⟩ params sampleChoice.code sampleChoice.salt =
      .ok (sampleChoice.code, sampleSlot params) := by
    rw [planEnrollRecovery, deriveKeyFromBytes_of accepted]
    rfl
  have planned : sampleEnrolment params =
      (sampleWorld.next (fun _ => sampleChoice) (.recoveryEnrollInputs sampleDek)).next
        (fun _ => sampleChoice) (.planEnrollRecovery ⟨sampleDek⟩ params) := by
    simp only [World.next, made]
    rfl
  have before : Reaches guard sampleWorld (sampleEnrolment params) := by
    rw [planned]
    have captured := Reaches.refl.tail (.recoveryEnrollInputs sampleDek) _
      (List.mem_singleton_self _) (meets sampleWorld (.recoveryEnrollInputs sampleDek) fun _ => trivial)
    exact captured.tail _ _ (List.mem_singleton_self _)
      (meets _ (.planEnrollRecovery ⟨sampleDek⟩ params) fun bounded => bounded)
  refine before.tail _ _ ⟨?_, ?_⟩
    (meets _ (.applyEnrollRecovery sampleDek sampleChoice.code (sampleSlot params)) fun _ => trivial)
  · exact List.mem_singleton_self _
  · exact List.mem_singleton_self _

theorem keySlots_sound_enrolled : SlotsSound sampleDek 7 (sampleEnrolled sampleParams) :=
  keySlots_sound sampleWorld_vault
    (sampleEnrolled_reached (by decide) fun _ _ bounded => ⟨fun _ => rfl, bounded (by decide)⟩)

/-- An enrolment with one pass too many is planned and applied without an error, and then
neither the passphrase nor the code opens the vault. -/
theorem unbounded_enrolment_locks_vault :
    Reaches (fun _ _ choices => ∀ n, Calm (choices n)) sampleWorld (sampleEnrolled ⟨19456, 17, 1⟩) ∧
      (sampleEnrolled ⟨19456, 17, 1⟩).applied = [1] ∧
      (sampleEnrolled ⟨19456, 17, 1⟩).code = some sampleChoice.code ∧
      (openVesta [1] (fun _ => sampleChoice) 0 (sampleEnrolled ⟨19456, 17, 1⟩).files).value? =
        some (.error (.metaInvalid
          "argon2 params exceed limits (m_cost_kib=19456 t_cost=17 p_cost=1)")) ∧
      (openWithRecovery sampleChoice.code (fun _ => sampleChoice) 0
        (sampleEnrolled ⟨19456, 17, 1⟩).files).value? =
        some (.error (.metaInvalid
          "argon2 params exceed limits (m_cost_kib=19456 t_cost=17 p_cost=1)")) := by
  refine ⟨sampleEnrolled_reached (by decide) fun _ _ _ _ => rfl, ?_, ?_, ?_, ?_⟩ <;> rfl

end TerrapiVault.Vault
