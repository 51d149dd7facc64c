import TerrapiVault.Vault.Opening

/-! Creating over an existing vault. `create` and `open` classify the two paths
differently: `open` follows links and lets the database be created, `create` removes links
first and takes what then stands alone for an orphan. -/
namespace TerrapiVault.Vault
open CrashLogic

variable {δ α β : Type}

/-- Whatever it is called with, `create` refuses and the passphrase still opens the data. -/
def SafeFromCreate [Inhabited δ] (fs : Files δ) (passphrase : Passphrase) (data : δ) : Prop :=
  ∀ (other : Passphrase) (params : KdfParams) (choices : ℕ → Choice), (∀ n, Calm (choices n)) →
    (create other params choices 0 fs).value? = some (.error .alreadyExists) ∧
      Opens (create other params choices 0 fs).final passphrase data

/-- What `stripLink` leaves. -/
def Files.stripped (fs : Files δ) (name : Name) : Files δ :=
  if fs.isLink name then fs.put name .absent else fs

variable {fs : Files δ} {name : Name}

theorem Files.stripped_of_file (regular : fs.Regular name) : fs.stripped name = fs := by
  obtain ⟨content, file⟩ := regular
  simp [Files.stripped, Files.isLink, file]

theorem Files.stripped_other (fs : Files δ) {name' : Name} (ne : name' ≠ name) :
    fs.stripped name name' = fs name' := by
  unfold Files.stripped
  split
  · exact fs.put_other .absent ne
  · rfl

theorem Files.stripped_absent (irregular : ¬fs.Regular name) : fs.stripped name name = .absent := by
  cases entry : fs name with
  | absent => simp [Files.stripped, Files.isLink, entry]
  | file content => exact absurd ⟨content, entry⟩ irregular
  | link target => simp [Files.stripped, Files.isLink, entry]

theorem Files.not_present (absent : fs name = .absent) : fs.present name = false := by
  simp [Files.present, Files.read_of_absent absent]

/-- The program never reports that a vault is there. -/
def Quiet (m : Program δ α) : Prop :=
  Triple (fun _ => True) (fun _ => True) (fun _ => True) m (fun _ _ => True)
    (fun e _ => e ≠ .alreadyExists)

theorem Quiet.bind {m : Program δ α} {f : α → Program δ β} (first : Quiet m)
    (rest : ∀ a, Quiet (f a)) : Quiet (m >>= f) :=
  Triple.bind first rest

theorem Quiet.pure (a : α) : Quiet (Pure.pure a : Program δ α) := Triple.pure a fun _ _ => trivial

theorem Quiet.act {f : Choice → Files δ → Files δ × Result α}
    (quiet : ∀ c fs, (f c fs).2 ≠ .error .alreadyExists) : Quiet (act f) :=
  act_spec (fun _ _ _ _ _ => trivial) (fun _ _ _ _ _ _ => trivial)
    fun c fs _ _ _ failed same => quiet c fs (same ▸ failed)

theorem Quiet.ofExcept {r : Result α} (quiet : r ≠ .error .alreadyExists) :
    Quiet (Script.ofExcept r : Program δ α) :=
  Triple.ofExcept (fun _ _ _ _ => trivial) fun _ _ failed _ same => quiet (same ▸ failed)

theorem discard_quiet (name : Name) : Quiet (discard name : Program δ Unit) :=
  Quiet.act fun _ _ => nofun

theorem removeFile_quiet (name : Name) : Quiet (removeFile name : Program δ Unit) :=
  Quiet.act fun _ fs => by cases fs name <;> simp

theorem createNew_quiet (name : Name) : Quiet (createNew name : Program δ Unit) :=
  Quiet.act fun _ fs => by cases fs name <;> simp

theorem rename_quiet (source target : Name) : Quiet (rename source target : Program δ Unit) :=
  Quiet.act fun _ fs => by cases fs source <;> simp

theorem openKeyed_quiet [Inhabited δ] (name : Name) (key : Key) : Quiet (openKeyed name key : Program δ δ) := by
  refine Quiet.act fun _ fs => ?_
  split
  · nofun
  · split
    · split <;> nofun
    all_goals nofun

theorem deriveKey_quiet (passphrase : Passphrase) (salt : Salt) (params : KdfParams) :
    deriveKey passphrase salt params ≠ .error .alreadyExists := by
  by_cases accepted : params.Accepted
  · rw [deriveKey, deriveKeyFromBytes_of accepted]
    intro same
    cases same
  · rw [deriveKey, deriveKeyFromBytes, Checked.ensure_not _ accepted]
    intro same
    cases same

theorem removeOrphans_quiet {found : Bool × Bool} (one : ¬(found.1 = true ∧ found.2 = true)) :
    Quiet (removeOrphans found : Program δ Unit) := by
  match found, one with
  | (true, true), one => exact absurd ⟨rfl, rfl⟩ one
  | (true, false), _ =>
    exact (removeFile_quiet _).bind fun _ => (discard_quiet _).bind fun _ => discard_quiet _
  | (false, true), _ => exact removeFile_quiet _
  | (false, false), _ => exact Quiet.pure ()

section

variable {allow : Choice → Prop} {crash : Files δ → Prop} {fail : Error → Files δ → Prop}

theorem stripLink_spec (name : Name) (fs : Files δ) (stops : crash (fs.stripped name)) :
    Triple allow crash (· = fs) (stripLink name) (fun _ s => s = fs.stripped name) fail := by
  refine Triple.known (Triple.look fun s same => congrArg (Files.isLink · name) same) ?_
  cases entry : fs name with
  | link target =>
    have stripped : fs.stripped name = fs.put name .absent := by
      simp [Files.stripped, Files.isLink, entry]
    have link : fs.isLink name = true := by simp [Files.isLink, entry]
    rw [link, stripped, if_pos rfl]
    rw [stripped] at stops
    refine act_spec ?_ ?_ ?_
    · rintro c s _ rfl _
      simpa [entry] using stops
    · rintro c s a _ rfl _
      simp [entry]
    · rintro c s e _ rfl failed
      simp [entry] at failed
  | absent | file content =>
    have plain : fs.isLink name = false := by simp [Files.isLink, entry]
    rw [plain, if_neg Bool.false_ne_true]
    refine Triple.pure () fun s same => ?_
    simp [Files.stripped, plain, same]

theorem preparePathsForCreate_spec (fs : Files δ) {post : Unit → Files δ → Prop}
    (stops : ∀ s, crash s)
    (rest : Triple allow crash (fun s => s = (fs.stripped .vault).stripped .sidecar)
      (removeOrphans (((fs.stripped .vault).stripped .sidecar).present .vault,
        ((fs.stripped .vault).stripped .sidecar).present .sidecar)) post fail) :
    Triple allow crash (· = fs) preparePathsForCreate post fail := by
  refine Triple.bind (stripLink_spec _ _ (stops _)) fun _ => ?_
  refine Triple.bind (stripLink_spec _ _ (stops _)) fun _ => ?_
  exact Triple.known (Triple.look fun s same => by rw [same]) rest

end

theorem stripLink_of_file (regular : fs.Regular name) (choices : ℕ → Choice) (n : ℕ) :
    stripLink name choices n fs = .done (.ok ()) fs n := by
  obtain ⟨content, file⟩ := regular
  simp only [stripLink, bind, Script.bind, Script.look, Files.isLink, file]
  rfl

theorem preparePathsForCreate_refuses (vault : fs.Regular .vault) (sidecar : fs.Regular .sidecar)
    (choices : ℕ → Choice) (n : ℕ) :
    preparePathsForCreate choices n fs = .done (.error .alreadyExists) fs n := by
  simp only [preparePathsForCreate, bind, Script.bind, stripLink_of_file vault,
    stripLink_of_file sidecar, Script.look]
  obtain ⟨database, vault⟩ := vault
  obtain ⟨info, sidecar⟩ := sidecar
  simp only [Files.present, Files.read_of_file vault, Files.read_of_file sidecar,
    Option.isSome_some, removeOrphans]
  rfl

theorem not_both_present (irregular : ¬(fs.Regular .vault ∧ fs.Regular .sidecar)) :
    ¬(((fs.stripped .vault).stripped .sidecar).present .vault = true ∧
      ((fs.stripped .vault).stripped .sidecar).present .sidecar = true) := by
  rintro ⟨vault, sidecar⟩
  by_cases regular : fs.Regular .vault
  · have gone : ¬(fs.stripped .vault).Regular .sidecar := by
      rw [Files.stripped_of_file regular]
      exact fun other => irregular ⟨regular, other⟩
    rw [Files.not_present (Files.stripped_absent gone)] at sidecar
    cases sidecar
  · have gone : (fs.stripped .vault).stripped .sidecar .vault = .absent := by
      rw [Files.stripped_other _ (by decide), Files.stripped_absent regular]
    rw [Files.not_present gone] at vault
    cases vault

variable [Inhabited δ]

theorem create_rest_quiet (passphrase : Passphrase) (params : KdfParams) {m : Program δ Unit}
    {pre : Files δ → Prop}
    (first : Triple (fun _ => True) (fun _ => True) pre m (fun _ _ => True)
      (fun e _ => e ≠ Error.alreadyExists)) :
    Triple (fun _ => True) (fun _ => True) pre (do
      m
      let dek ← draw fun c => Key.random c.key
      let salt ← draw fun c => c.salt
      let slotKey ← Script.ofExcept (deriveKey passphrase salt params)
      let data ← openKeyed .vault dek
      atomicWriteJson (.v2 (.fresh ⟨params, salt, wrap slotKey dek .password⟩)) .sidecar
      pure (⟨dek, data⟩ : Vesta δ)) (fun _ _ => True) (fun e _ => e ≠ Error.alreadyExists) := by
  refine Triple.bind first fun _ => ?_
  refine Quiet.bind (Quiet.act fun _ _ => nofun) fun dek => ?_
  refine Quiet.bind (Quiet.act fun _ _ => nofun) fun salt => ?_
  refine Quiet.bind (Quiet.ofExcept (deriveKey_quiet _ _ _)) fun slotKey => ?_
  refine Quiet.bind (openKeyed_quiet _ _) fun data => ?_
  refine Quiet.bind ((discard_quiet _).bind fun _ => (createNew_quiet _).bind fun _ => ?_)
    fun _ => Quiet.pure _
  exact Quiet.bind (Quiet.act fun _ _ => nofun) fun _ => rename_quiet _ _

theorem create_proceeds (irregular : ¬(fs.Regular .vault ∧ fs.Regular .sidecar))
    (passphrase : Passphrase) (params : KdfParams) (choices : ℕ → Choice) :
    (create passphrase params choices 0 fs).value? ≠ some (.error .alreadyExists) := by
  intro refused
  have first : Triple (fun _ => True) (fun _ => True) (· = fs)
      (preparePathsForCreate : Program δ Unit) (fun _ _ => True)
      (fun e _ => e ≠ Error.alreadyExists) :=
    preparePathsForCreate_spec fs (fun _ => trivial)
      (Triple.weaken (removeOrphans_quiet (not_both_present irregular)) fun _ _ => trivial)
  exact (create_rest_quiet passphrase params first).failed (fun _ => trivial) rfl refused rfl

/-- Creating leaves a vault that opens alone exactly if both its paths are regular files. -/
theorem safeFromCreate_iff {fs : Files δ} {passphrase : Passphrase} {data : δ}
    (opens : Opens fs passphrase data) :
    SafeFromCreate fs passphrase data ↔ fs.Regular .vault ∧ fs.Regular .sidecar := by
  constructor
  · intro safe
    by_contra irregular
    let calm : ℕ → Choice := fun _ =>
      ⟨false, Vector.replicate 16 0, Vector.replicate 32 0, ⟨Vector.replicate 20 0⟩⟩
    exact create_proceeds irregular [] ⟨8, 1, 1⟩ calm (safe [] ⟨8, 1, 1⟩ calm fun _ => rfl).1
  · rintro ⟨vault, sidecar⟩ other params choices _
    have refused : create other params choices 0 fs = .done (.error .alreadyExists) fs 0 := by
      change Script.bind preparePathsForCreate _ choices 0 fs = _
      simp only [Script.bind, preparePathsForCreate_refuses vault sidecar]
    rw [refused]
    exact ⟨rfl, opens⟩

theorem safeFromCreate_sample :
    SafeFromCreate (sampleFiles (.file (.database sampleDek 7))) [1] 7 :=
  (safeFromCreate_iff (sampleFiles_opens rfl rfl)).mpr ⟨⟨_, rfl⟩, ⟨_, rfl⟩⟩

/-- A vault whose database path is a link opens; creating over it succeeds, and its
passphrase opens nothing afterwards. -/
theorem create_replaces_linked_vault :
    Opens (sampleFiles (.link (.other 0))) [1] 7 ∧
      (create [2] sampleParams (fun _ => sampleChoice) 0 (sampleFiles (.link (.other 0)))).value? =
        some (.ok ⟨.random (Vector.replicate 32 1), 0⟩) ∧
      (openVesta [1] (fun _ => sampleChoice) 0 (create [2] sampleParams (fun _ => sampleChoice) 0
        (sampleFiles (.link (.other 0)))).final).value? = some (.error .wrongPassphrase) := by
  refine ⟨sampleFiles_opens rfl rfl, ?_, ?_⟩ <;> rfl

end TerrapiVault.Vault
