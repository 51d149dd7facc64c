import TerrapiVault.Vault.KeySlots

/-! A vault whose process may stop between any two operations. In every state a run leaves,
one passphrase opens the data: the last one used or one that was being set. -/
namespace TerrapiVault.Vault
open CrashLogic

variable {δ : Type}

/-- The staged sidecar gives up the key to the passphrase. -/
def StagedFor (key : Key) (passphrase : Passphrase) : StoredMeta → Prop
  | .v2 info => info.slots.password.For .password passphrase key ∧
      ∀ slot ∈ info.slots.recovery, slot.kdfParams.Bounded
  | .v1 info => info.kdfParams.Usable ∧ key = .derived passphrase info.salt info.kdfParams

/-- The staged sidecar is a file, if any, and wraps no copy of the key. -/
def StagedApart (key : Key) : Entry δ → Prop
  | .absent => True
  | .file (.sidecar (.v2 info)) => info.slots.password.wrap.dek ≠ key
  | .file _ => True
  | .link _ => False

/-- What a stopped process may leave: a v2 vault; a v1 vault with a staged sidecar that does
not matter; or a database already under the key of the staged sidecar. -/
inductive Ready (data : δ) (passphrase : Passphrase) (fs : Files δ) : Prop
  | v2 {dek : Key} {slots : KeySlots} (vault : PasswordVault dek data passphrase slots fs)
  | v1 {info : MetaV1} (usable : info.kdfParams.Usable)
      (vault : fs .vault = .file (.database (.derived passphrase info.salt info.kdfParams) data))
      (sidecar : fs .sidecar = .file (.sidecar (.v1 info)))
      (staged : StagedApart (.derived passphrase info.salt info.kdfParams) (fs .staged))
  | staged {key : Key} {info : MetaV1} {next : StoredMeta} (usable : info.kdfParams.Usable)
      (vault : fs .vault = .file (.database key data))
      (sidecar : fs .sidecar = .file (.sidecar (.v1 info)))
      (moved : ∀ other, Key.derived other info.salt info.kdfParams ≠ key)
      (there : fs .staged = .file (.sidecar next)) (unlocks : StagedFor key passphrase next)

variable {key : Key} {α : Type} {pre : Files δ → Prop} {post : α → Files δ → Prop} {info : MetaV1}
  {other : Passphrase} {dek : Key} {passphrase : Passphrase} {slots : KeySlots} {fs : Files δ}
  {plan : RotationPlan}

section Specs

variable {allow : Choice → Prop} {crash : Files δ → Prop} {fail : Error → Files δ → Prop}
  {data : δ} {passphrase : Passphrase} {fs : Files δ}

theorem StagedFor.bounded {next : StoredMeta} (unlocks : StagedFor key passphrase next) :
    next.Bounded := by
  cases next with
  | v1 info => exact unlocks.1.bounded
  | v2 info => exact ⟨unlocks.1.usable.bounded, unlocks.2⟩

/-- A program may be followed from each state by itself. -/
theorem each_state {m : Program δ α}
    (spec : ∀ fs, pre fs → Triple allow crash (· = fs) m post fail) :
    Triple allow crash pre m post fail :=
  fun choices allowed n s holds => spec s holds choices allowed n s rfl

theorem draw_spec {f : Choice → α} (stops : Halts allow crash pre) :
    Triple allow crash pre (draw f) (fun r s => (∃ c, f c = r) ∧ pre s) fail :=
  act_spec (fun c s allowed holds stop => stops c s allowed stop holds)
    (fun c _ _ _ holds drawn => ⟨⟨c, Except.ok.inj drawn⟩, holds⟩)
    (fun _ _ _ _ _ failed => nomatch failed)

theorem rekey_spec {key' : Key} {post : Files δ → Prop}
    (vault : ∀ s, pre s → s .vault = .file (.database key data))
    (moved : ∀ s, pre s → post (s.put .vault (.file (.database key' data))))
    (stops : Halts allow crash post) :
    Triple allow crash pre (rekey key') (fun _ => post) fail := by
  refine act_spec ?_ ?_ ?_
  · intro c s allowed holds stop
    simpa [Files.located_of_file (vault s holds), vault s holds] using
      stops c _ allowed stop (moved s holds)
  · intro c s a _ holds _
    simpa [Files.located_of_file (vault s holds), vault s holds] using moved s holds
  · intro c s e _ holds failed
    simp [Files.located_of_file (vault s holds), vault s holds] at failed

/-- A v1 vault under its own key, whatever is staged. -/
structure OpenV1 (data : δ) (passphrase : Passphrase) (info : MetaV1) (fs : Files δ) : Prop where
  vault : fs .vault = .file (.database (.derived passphrase info.salt info.kdfParams) data)
  sidecar : fs .sidecar = .file (.sidecar (.v1 info))

theorem OpenV1.apart {fs' : Files δ} {changed : List Name} (v1 : OpenV1 data passphrase info fs)
    (same : Files.Apart changed fs fs') (vault : Name.vault ∉ changed)
    (sidecar : Name.sidecar ∉ changed) : OpenV1 data passphrase info fs' :=
  ⟨(same _ vault).trans v1.vault, (same _ sidecar).trans v1.sidecar⟩

/-- Stage, rekey, commit: the vault is ready wherever this stops. -/
theorem stage_spec {slot : KeySlot} {bytes : Vector UInt8 32} (usable : info.kdfParams.Usable)
    (v1 : OpenV1 data passphrase info fs) (unstaged : fs .staged = .absent)
    (made : slot.For .password passphrase (.random bytes))
    (stops : Halts allow crash (Ready data passphrase)) :
    Triple allow crash (· = fs)
      (do
        atomicWriteJson (.v2 (.fresh slot)) .staged
        rekey (.random bytes)
        rename .staged .sidecar
        pure (⟨.random bytes, data⟩ : Vesta δ))
      (fun handle s => handle.data = data ∧ Ready data passphrase s) fail := by
  have beside (s : Files δ) (same : Files.Apart [Name.staged.tmp] fs s) : Ready data passphrase s := by
    have v1' := v1.apart same (by decide) (by decide)
    refine .v1 usable v1'.vault v1'.sidecar ?_
    rw [same .staged (by decide), unstaged]
    trivial
  have staged (s : Files δ) (written : Files.Rewrote .staged (.v2 (.fresh slot)) fs s) :
      Ready data passphrase s := by
    have v1' := v1.apart written.2 (by decide) (by decide)
    refine .v1 usable v1'.vault v1'.sidecar ?_
    rw [written.1]
    change slot.wrap.dek ≠ _
    rw [made.wrapped]
    nofun
  have unlocks : StagedFor (.random bytes) passphrase (.v2 (.fresh slot)) := ⟨made, nofun⟩
  refine Triple.bind ((atomicWriteJson_spec _ fs (stops.mono beside)
    (stops.mono staged)).weaken fun s same _ _ => by rw [same])
    fun _ => ?_
  let rekeyed (s : Files δ) : Prop := s .vault = .file (.database (.random bytes) data) ∧
    s .sidecar = .file (.sidecar (.v1 info)) ∧ s .staged = .file (.sidecar (.v2 (.fresh slot)))
  have ready (s : Files δ) (holds : rekeyed s) : Ready data passphrase s :=
    .staged usable holds.1 holds.2.1 (fun _ => nofun) holds.2.2 unlocks
  refine Triple.bind (rekey_spec
    (fun s written => (v1.apart written.2 (by decide) (by decide)).vault)
    (fun s written => (⟨?_, ?_, ?_⟩ : rekeyed _)) (stops.mono ready))
    fun _ => ?_
  · exact s.put_same _ _
  · rw [Files.put_other _ _ (by decide)]
    exact (v1.apart written.2 (by decide) (by decide)).sidecar
  · rw [Files.put_other _ _ (by decide)]
    exact written.1
  refine Triple.bind (rename_spec (fun s holds => holds.2.2) (fun s holds => ?_) stops)
    fun _ => Triple.pure _ fun s holds => ⟨rfl, holds⟩
  refine .v2 (⟨?_, Files.put_same _ _ _, made, nofun⟩ : PasswordVault (.random bytes) data passphrase ⟨slot, none⟩ _)
  rw [Files.put_other _ _ (by decide), Files.put_other _ _ (by decide)]
  exact holds.1

theorem migrate_spec (usable : info.kdfParams.Usable)
    (stops : Halts allow crash (Ready data passphrase)) :
    Triple allow crash (fun s => OpenV1 data passphrase info s ∧ s .staged = .absent)
      (migrateV1ToV2 passphrase info data)
      (fun handle s => handle.data = data ∧ Ready data passphrase s) fail := by
  have waiting : Halts allow crash fun s => OpenV1 data passphrase info s ∧ s .staged = .absent :=
    stops.mono fun s holds => .v1 usable holds.1.vault holds.1.sidecar (holds.2 ▸ trivial)
  refine Triple.bind (draw_spec waiting) fun dek => Triple.given fun drawn => ?_
  obtain ⟨c, rfl⟩ := drawn
  refine Triple.bind (draw_spec waiting) fun salt => Triple.given fun _ => ?_
  obtain ⟨slot, resealed, made, _⟩ := resealPasswordSlot_for usable.floored
  refine Triple.known (Triple.checked resealed) ?_
  exact each_state fun fs holds => stage_spec usable holds.1 holds.2 made stops

theorem result_spec (r : Result α) :
    Triple allow crash (· = fs) (Script.ofExcept r)
      (fun a s => r = .ok a ∧ s = fs) (fun _ s => s = fs) :=
  Triple.ofExcept (fun _ _ ok same => ⟨ok, same⟩) fun _ _ _ same => same

theorem readMeta_any {name : Name} :
    Triple allow crash (· = fs) (readMeta name)
      (fun info s => fs.read name = some (.sidecar info) ∧ s = fs) (fun _ s => s = fs) := by
  refine Triple.known (Triple.look fun s same => congrArg (Files.read · name) same) ?_
  refine (result_spec _).strengthen fun info s holds => ⟨?_, holds.2⟩
  obtain ⟨parsed, _⟩ := StoredMeta.parse_eq_ok.mp holds.1
  match found : fs.read name with
  | none => rw [found] at parsed; cases parsed
  | some (.sidecar info') => rw [found] at parsed; cases parsed; rfl
  | some .empty => rw [found] at parsed; cases parsed
  | some (.database key data) => rw [found] at parsed; cases parsed
  | some .foreign => rw [found] at parsed; cases parsed

variable [Inhabited δ]

/-- The committed v1 sidecar is read and a key derived from it. -/
theorem openV1_spec {post : Vesta δ → Files δ → Prop} (usable : info.kdfParams.Usable)
    (sidecar : fs .sidecar = .file (.sidecar (.v1 info)))
    (rest : Triple allow crash (· = fs)
      (do
        let opened ← (openKeyed .vault (.derived other info.salt info.kdfParams)).attempt
        openV1Keyed other info opened) post fail) :
    Triple allow crash (· = fs) (openVesta other) post fail := by
  have bounded : (StoredMeta.v1 info).Bounded := usable.bounded
  refine Triple.known (readMeta_spec bounded fun s same => same ▸ Files.read_of_file sidecar) ?_
  exact Triple.known (Triple.checked (deriveKeyFromBytes_of usable.accepted)) rest

section

variable (vault : fs .vault = .file (.database key data))
include vault

theorem attempt_right {f : Result δ → Program δ α} (stops : Halts allow crash fun s => s = fs)
    (rest : Triple allow crash (· = fs) (f (.ok data)) post fail) :
    Triple allow crash (· = fs) ((openKeyed .vault key).attempt >>= f) post fail := by
  refine Triple.known (Triple.attempt_known (openKeyed_spec (fun s same => ?_) stops)) rest
  exact same ▸ ⟨.vault, Files.located_of_file vault, vault⟩

theorem attempt_wrong {key' : Key} {f : Result δ → Program δ α} (wrong : key ≠ key')
    (stops : Halts allow crash fun s => s = fs)
    (rest : Triple allow crash (· = fs) (f (.error .wrongPassphrase)) post fail) :
    Triple allow crash (· = fs) ((openKeyed .vault key').attempt >>= f) post fail := by
  have refused : Triple allow crash (· = fs) (openKeyed .vault key').attempt
      (fun r s => r = .error .wrongPassphrase ∧ s = fs) fail := by
    have found (s : Files δ) (same : s = fs) :
        ∃ at', s.located .vault = some at' ∧ s at' = .file (.database key data) :=
      same ▸ ⟨.vault, Files.located_of_file vault, vault⟩
    refine (openKeyed_wrong wrong found stops).attempt.strengthen fun r s holds => ?_
    cases r with
    | ok opened => exact holds.elim
    | error e => exact ⟨congrArg Except.error holds.1, holds.2⟩
  exact Triple.known refused rest

/-- The staged sidecar gives the passphrase another key than the database's, or none. -/
def StagedUseless (key : Key) (other : Passphrase) : Entry δ → Prop
  | .absent => True
  | .file (.sidecar (.v2 info)) => ∀ dek, unlockSlot info.slots.password other = .ok (some dek) → key ≠ dek
  | .file (.sidecar (.v1 info)) => key ≠ .derived other info.salt info.kdfParams
  | .file _ => True
  | .link _ => False

theorem recover_useless (useless : StagedUseless key other (fs .staged))
    (stops : Halts allow crash fun s => s = fs) :
    Triple allow crash (· = fs) (recoverInterruptedMigration other)
      (fun r s => r = none ∧ s = fs) (fun _ s => s = fs) := by
  have tried (key' : Key) (wrong : key ≠ key') :
      Triple allow crash (· = fs) (tryStaged (some key') : Program δ (Option (Vesta δ)))
        (fun r s => r = none ∧ s = fs) (fun _ s => s = fs) :=
    attempt_wrong vault wrong stops (Triple.pure _ fun _ same => ⟨rfl, same⟩)
  refine Triple.known (Triple.look fun s same => congrArg (Files.present · .staged) same) ?_
  cases entry : fs .staged with
  | absent =>
    rw [Files.present, Files.read_of_absent entry]
    exact Triple.pure _ fun _ same => ⟨rfl, same⟩
  | link target => rw [entry] at useless; exact useless.elim
  | file content =>
    rw [Files.present, Files.read_of_file entry]
    rw [entry] at useless
    refine Triple.bind readMeta_any fun info => Triple.given fun found => ?_
    obtain rfl : content = .sidecar info :=
      Option.mem_unique (Files.read_of_file entry) found
    cases info with
    | v1 info =>
      exact Triple.bind (result_spec (deriveKey other info.salt info.kdfParams)) fun key' =>
        Triple.given fun derived => tried key'
          (Except.ok.inj (Checked.ensure_bind_eq_ok.mp derived).2 ▸ useless)
    | v2 info =>
      refine Triple.bind (result_spec (unlockSlot info.slots.password other)) fun dek =>
        Triple.given fun unlocked => ?_
      cases dek with
      | none => exact Triple.pure _ fun _ same => ⟨rfl, same⟩
      | some dek => exact tried dek (useless dek unlocked)

theorem recover_right {next : StoredMeta} (there : fs .staged = .file (.sidecar next))
    (unlocks : StagedFor key passphrase next) (here : Halts allow crash fun s => s = fs)
    (stops : Halts allow crash (Ready data passphrase)) :
    Triple allow crash (· = fs) (recoverInterruptedMigration passphrase)
      (fun r s => r = some ⟨key, data⟩ ∧ Ready data passphrase s) fail := by
  have committed : Triple allow crash (· = fs)
      (tryStaged (some key) : Program δ (Option (Vesta δ)))
      (fun r s => r = some ⟨key, data⟩ ∧ Ready data passphrase s) fail := by
    refine attempt_right vault here ?_
    refine Triple.bind (rename_spec (fun s same => same ▸ there) (fun s same => ?_) stops)
      fun _ => Triple.pure _ fun _ ready => ⟨rfl, ready⟩
    subst same
    have vault' : ((s.put .staged .absent).put .sidecar (.file (.sidecar next))) .vault =
        .file (.database key data) := by
      rw [Files.put_other _ _ (by decide), Files.put_other _ _ (by decide), vault]
    cases next with
    | v2 info => exact .v2 ⟨vault', Files.put_same _ _ _, unlocks.1, unlocks.2⟩
    | v1 info =>
      obtain ⟨usable, rfl⟩ := unlocks
      refine .v1 usable vault' (Files.put_same _ _ _) ?_
      rw [Files.put_other _ _ (by decide), Files.put_same]
      trivial
  refine Triple.known (Triple.look fun s same => congrArg (Files.present · .staged) same) ?_
  rw [Files.present, Files.read_of_file there]
  refine Triple.known (readMeta_spec unlocks.bounded fun s same => same ▸ Files.read_of_file there) ?_
  cases next with
  | v1 info =>
    obtain ⟨usable, rfl⟩ := unlocks
    exact Triple.known (Triple.checked (deriveKeyFromBytes_of usable.accepted)) committed
  | v2 info =>
    have unlocked : unlockSlot info.slots.password passphrase = .ok (some key) := by
      rw [unlocks.1.unlock, if_pos rfl]
    exact Triple.known (Triple.checked unlocked) committed

end

/-- An attempt with another passphrase changes nothing. -/
theorem Ready.openVesta_wrong (ready : Ready data passphrase fs) (wrong : other ≠ passphrase)
    (stops : Halts allow crash fun s => s = fs) :
    Triple allow crash (· = fs) (openVesta other) (fun _ _ => False) (fun _ s => s = fs) := by
  have refused {key : Key} {info : MetaV1} (usable : info.kdfParams.Usable)
      (vault : fs .vault = .file (.database key data))
      (sidecar : fs .sidecar = .file (.sidecar (.v1 info)))
      (moved : key ≠ .derived other info.salt info.kdfParams)
      (useless : StagedUseless key other (fs .staged)) :
      Triple allow crash (· = fs) (openVesta other) (fun _ _ => False)
        (fun _ s => s = fs) := by
    refine openV1_spec usable sidecar (attempt_wrong vault moved stops ?_)
    refine Triple.known (recover_useless vault useless stops) ?_
    exact Triple.throw _ fun _ same => same
  cases ready with
  | v2 vault =>
    exact (vault.openVesta_wrong wrong).conseq (fun _ same => same) (fun _ h => h) (fun _ _ h => h)
      fun _ _ holds => holds.2
  | @v1 info usable vault sidecar staged =>
    refine refused usable vault sidecar (fun same => wrong (deriveKey_inj.mp same).symm) ?_
    match entry : fs .staged, staged with
    | .absent, _ => trivial
    | .file (.sidecar (.v2 next)), apart =>
      intro dek unlocked same
      obtain ⟨slotKey, _, opened⟩ := bind_eq_ok.mp unlocked
      have unwrapped : unwrap slotKey next.slots.password.wrap .password = some dek :=
        Except.ok.inj opened
      unfold unwrap at unwrapped
      split at unwrapped
      · exact apart ((Option.some.inj unwrapped).trans same.symm)
      · cases unwrapped
    | .file (.sidecar (.v1 next)), _ =>
      intro same
      exact wrong (Key.derived.inj same).1.symm
    | .file .empty, _ => trivial
    | .file (.database _ _), _ => trivial
    | .file .foreign, _ => trivial
  | @staged key info next usable vault sidecar moved there unlocks =>
    refine refused usable vault sidecar (fun same => moved other same.symm) ?_
    rw [there]
    cases next with
    | v1 next =>
      intro same
      exact wrong (Key.derived.inj (unlocks.2.symm.trans same)).1.symm
    | v2 next =>
      intro dek unlocked
      rw [unlocks.1.unlock, if_neg (Ne.symm wrong)] at unlocked
      cases unlocked

theorem Ready.openVesta_right (ready : Ready data passphrase fs)
    (stops : Halts allow crash (Ready data passphrase)) :
    Triple allow crash (· = fs) (openVesta passphrase)
      (fun handle s => handle.data = data ∧ Ready data passphrase s) fail := by
  have here : Halts allow crash fun s => s = fs := stops.mono fun s same => same ▸ ready
  cases ready with
  | v2 vault =>
    have after (s : Files δ) (same : Files.Apart [Name.staged] fs s) : Ready data passphrase s :=
      .v2 (vault.apart same (by decide) (by decide))
    refine (vault.openVesta_right (stops.mono after)).strengthen ?_
    rintro handle s ⟨rfl, same⟩
    exact ⟨rfl, after s same⟩
  | @v1 info usable vault sidecar staged =>
    refine openV1_spec usable sidecar (attempt_right vault here ?_)
    have cleaned (s : Files δ) (same : s = fs) :
        OpenV1 data passphrase info (s.put .staged .absent) ∧ s.put .staged .absent .staged = .absent := by
      subst same
      have apart : Files.Apart [Name.staged] s (s.put .staged .absent) :=
        Files.Apart.put (fun _ _ => rfl) (List.mem_singleton_self _) _
      exact ⟨OpenV1.apart ⟨vault, sidecar⟩ apart (by decide) (by decide), s.put_same _ _⟩
    have waiting : Halts allow crash fun s => OpenV1 data passphrase info s ∧ s .staged = .absent :=
      stops.mono fun s holds => .v1 usable holds.1.vault holds.1.sidecar (holds.2 ▸ trivial)
    exact Triple.bind (discard_spec cleaned waiting) fun _ => migrate_spec usable stops
  | @staged key info next usable vault sidecar moved there unlocks =>
    refine openV1_spec usable sidecar (attempt_wrong vault (fun same => moved _ same.symm) here ?_)
    refine Triple.known (recover_right vault there unlocks here stops) ?_
    exact Triple.pure _ fun _ ready => ⟨rfl, ready⟩

end Specs

/-- The committed sidecar is v2 and the database under the key. -/
structure Committed (dek : Key) (fs : Files δ) : Prop where
  vault : ∃ data, fs .vault = .file (.database dek data)
  sidecar : ∃ slots, fs .sidecar = .file (.sidecar (.v2 ⟨slots⟩))

theorem PasswordVault.committed {data : δ} (v : PasswordVault dek data passphrase slots fs) :
    Committed dek fs :=
  ⟨⟨data, v.vault⟩, ⟨slots, v.sidecar⟩⟩

theorem Ready.vault {data : δ} (ready : Ready data passphrase fs) (committed : Committed dek fs) :
    ∃ slots, PasswordVault dek data passphrase slots fs := by
  obtain ⟨⟨found, database⟩, ⟨slots, sidecar⟩⟩ := committed
  cases ready with
  | @v2 dek' slots' vault =>
    obtain ⟨rfl, -⟩ : dek' = dek ∧ data = found := by simpa [vault.vault] using database
    exact ⟨slots', vault⟩
  | v1 _ _ sidecar' _ => rw [sidecar'] at sidecar; cases sidecar
  | staged _ _ sidecar' _ _ _ => rw [sidecar'] at sidecar; cases sidecar

/-- Handles may be stale, but no password plan wraps anything but the key of a committed
v2 vault. -/
structure Plans (w : World δ) : Prop where
  rotations : ∀ inputs ∈ w.rotations,
    Committed inputs.passwordSlot.wrap.dek w.files ∧ inputs.passwordSlot.kdfParams.Usable
  resets : ∀ inputs ∈ w.resets, Committed inputs.dek w.files ∧ inputs.params.Usable
  plans : ∀ made ∈ w.plans, ∃ dek, Committed dek w.files ∧
    made.2.newPasswordSlot.For .password made.1 dek
  slots : ∀ made ∈ w.slots, made.2.kdfParams.Bounded

theorem Plans.moved {w : World δ} {files : Files δ} (plans : Plans w)
    (kept : ∀ dek, Committed dek w.files → Committed dek files) : Plans { w with files } where
  rotations inputs there := ⟨kept _ (plans.rotations inputs there).1, (plans.rotations inputs there).2⟩
  resets inputs there := ⟨kept _ (plans.resets inputs there).1, (plans.resets inputs there).2⟩
  plans made there :=
    let ⟨dek, committed, of⟩ := plans.plans made there
    ⟨dek, kept dek committed, of⟩
  slots := plans.slots

/-- From `fs` the vault went on to be ready for the passphrase, over the same key if it was
committed. -/
structure Kept (data : δ) (passphrase : Passphrase) (fs fs' : Files δ) : Prop where
  ready : Ready data passphrase fs'
  committed : ∀ dek, Committed dek fs → Committed dek fs'

section Programs

variable {allow : Choice → Prop} {data : δ} {passphrase : Passphrase} {fs : Files δ}

theorem Ready.kept (ready : Ready data passphrase fs) : Kept data passphrase fs fs :=
  ⟨ready, fun _ committed => committed⟩

theorem PasswordVault.kept {slots' : KeySlots} {passphrase' : Passphrase} {fs' : Files δ}
    (v : PasswordVault dek data passphrase slots fs)
    (v' : PasswordVault dek data passphrase' slots' fs') : Kept data passphrase' fs fs' := by
  refine ⟨.v2 v', fun dek' committed => ?_⟩
  obtain ⟨_, database⟩ := committed.vault
  obtain ⟨rfl, -⟩ : dek = dek' ∧ data = _ := by simpa [v.vault] using database
  exact v'.committed

/-- A v1 sidecar is refused before anything is written. -/
theorem readV2Meta_legacy {crash : Files δ → Prop} {f : MetaV2 → Program δ α}
    (usable : info.kdfParams.Usable) (sidecar : fs .sidecar = .file (.sidecar (.v1 info))) :
    Triple allow crash (· = fs) (readV2Meta >>= f) (fun _ _ => False)
      (fun _ s => s = fs) := by
  have bounded : (StoredMeta.v1 info).Bounded := usable.bounded
  have refused : Triple allow crash (· = fs) (readV2Meta : Program δ MetaV2)
      (fun _ _ => False) (fun _ s => s = fs) := by
    refine Triple.known (readMeta_spec bounded fun s same => same ▸ Files.read_of_file sidecar) ?_
    exact Triple.ofExcept (fun _ _ ok _ => nomatch ok) fun _ _ _ same => same
  exact Triple.bind refused fun _ _ _ _ _ never => never.elim

/-- A program that starts by reading a v2 sidecar is followed from a v2 vault only. -/
theorem Ready.onV2 {crash : Files δ → Prop} {f : MetaV2 → Program δ α}
    {fail : Error → Files δ → Prop} (ready : Ready data passphrase fs)
    (unchanged : ∀ e, fail e fs) (v2 : ∀ dek slots, PasswordVault dek data passphrase slots fs →
      Triple allow crash (· = fs) (readV2Meta >>= f) post fail) :
    Triple allow crash (· = fs) (readV2Meta >>= f) post fail := by
  have legacy {info : MetaV1} (usable : info.kdfParams.Usable)
      (sidecar : fs .sidecar = .file (.sidecar (.v1 info))) :
      Triple allow crash (· = fs) (readV2Meta >>= f) post fail :=
    (readV2Meta_legacy usable sidecar).conseq (fun _ same => same) (fun _ h => h)
      (fun _ _ never => never.elim) fun e _ same => same ▸ unchanged e
  cases ready with
  | v2 vault => exact v2 _ _ vault
  | v1 usable _ sidecar _ => exact legacy usable sidecar
  | staged usable _ sidecar _ _ _ => exact legacy usable sidecar

theorem PasswordVault.drafted (vault : PasswordVault dek data passphrase slots fs) (s : Files δ)
    (same : Files.Apart [Name.sidecar.tmp] fs s) : Kept data passphrase fs s :=
  vault.kept (vault.apart same (by decide) (by decide))

/-- Changing the recovery slot keeps the passphrase. -/
theorem Ready.applyEnrollRecovery_spec (ready : Ready data passphrase fs) {slot : KeySlot}
    (bounded : slot.kdfParams.Bounded) :
    Triple allow (Kept data passphrase fs) (· = fs) (applyEnrollRecovery slot)
      (fun _ => Kept data passphrase fs) (fun _ => Kept data passphrase fs) := by
  refine ready.onV2 (fun _ => ready.kept) fun dek slots vault => ?_
  have after (s : Files δ)
      (written : Files.Rewrote .sidecar (.v2 ⟨{ slots with recovery := some slot }⟩) fs s) :
      Kept data passphrase fs s := by
    refine vault.kept (vault.rewritten written vault.password fun found there => ?_)
    obtain rfl := Option.some.inj there
    exact bounded
  exact (vault.change_spec (fun slots => { slots with recovery := some slot })
    (Halts.of vault.drafted) (Halts.of after)).strengthen fun _ s written => after s written

theorem Ready.removeRecovery_spec (ready : Ready data passphrase fs) :
    Triple allow (Kept data passphrase fs) (· = fs) removeRecovery
      (fun _ => Kept data passphrase fs) (fun _ => Kept data passphrase fs) := by
  refine ready.onV2 (fun _ => ready.kept) fun dek slots vault => ?_
  by_cases missing : slots.recovery = none
  · exact (vault.removeRecovery_none missing).conseq (fun _ same => same) (fun _ h => h)
      (fun _ _ never => never.elim) fun _ _ refused => refused.2 ▸ ready.kept
  have after (s : Files δ)
      (written : Files.Rewrote .sidecar (.v2 ⟨{ slots with recovery := none }⟩) fs s) :
      Kept data passphrase fs s :=
    vault.kept (vault.rewritten written vault.password nofun)
  exact (vault.removeRecovery_spec missing (Halts.of vault.drafted) (Halts.of after)).strengthen
    fun _ s written => after s written

/-- A password plan of the vault's key is applied whole or not at all. -/
theorem PasswordVault.applyRotation_spec (vault : PasswordVault dek data passphrase slots fs)
    {new : Passphrase} (made : plan.newPasswordSlot.For .password new dek) :
    Triple allow (fun s => Kept data passphrase fs s ∨ Kept data new fs s) (· = fs)
      (applyRotation plan) (fun _ => Kept data new fs) (fun _ _ => False) := by
  have after (s : Files δ)
      (written : Files.Rewrote .sidecar (.v2 ⟨{ slots with password := plan.newPasswordSlot }⟩) fs s) :
      Kept data new fs s :=
    vault.kept (vault.rewritten written made vault.recoverable)
  exact (vault.change_spec (fun slots => { slots with password := plan.newPasswordSlot })
    (Halts.of fun s same => .inl (vault.drafted s same)) (Halts.of fun s written => .inr (after s written))).strengthen
    fun _ s written => after s written

variable [Inhabited δ]

theorem Ready.openVesta_kept (ready : Ready data passphrase fs) :
    Triple allow (Kept data passphrase fs) (· = fs) (openVesta passphrase)
      (fun handle s => handle.data = data ∧ Kept data passphrase fs s) (fun _ _ => False) := by
  by_cases committed : ∃ dek, Committed dek fs
  · obtain ⟨dek, committed⟩ := committed
    obtain ⟨slots, vault⟩ := ready.vault committed
    have after (s : Files δ) (same : Files.Apart [Name.staged] fs s) : Kept data passphrase fs s :=
      vault.kept (vault.apart same (by decide) (by decide))
    refine (vault.openVesta_right (Halts.of after)).strengthen ?_
    rintro handle s ⟨rfl, same⟩
    exact ⟨rfl, after s same⟩
  · have lift (s : Files δ) (ready' : Ready data passphrase s) : Kept data passphrase fs s :=
      ⟨ready', fun dek found => (committed ⟨dek, found⟩).elim⟩
    exact (ready.openVesta_right (Halts.of lift)).strengthen fun _ s holds => ⟨holds.1, lift s holds.2⟩

/-- Opening with a recovery code changes no file. -/
theorem Ready.openWithRecovery_idle (ready : Ready data passphrase fs) (code : RecoveryCode) :
    Triple allow (· = fs) (· = fs) (openWithRecovery code)
      (fun _ s => s = fs) (fun _ s => s = fs) := by
  obtain ⟨key, vault⟩ : ∃ key, fs .vault = .file (.database key data) := by
    cases ready with
    | v2 vault => exact ⟨_, vault.vault⟩
    | v1 _ vault _ _ => exact ⟨_, vault⟩
    | staged _ vault _ _ _ _ => exact ⟨_, vault⟩
  have found (s : Files δ) (same : s = fs) :
      ∃ at', s.located .vault = some at' ∧ s at' = .file (.database key data) :=
    same ▸ ⟨.vault, Files.located_of_file vault, vault⟩
  refine Triple.bind readMeta_any fun info => Triple.given fun _ => ?_
  refine Triple.bind (result_spec (recoverySlot info)) fun slot => Triple.given fun _ => ?_
  refine Triple.bind (result_spec (unlockRecovery slot code)) fun dek => Triple.given fun _ => ?_
  by_cases right : key = dek
  · subst right
    refine Triple.known (openKeyed_spec found (Halts.of fun _ same => same)) ?_
    exact Triple.pure _ fun _ same => same
  · have refused : Triple allow (· = fs) (· = fs) (openKeyed .vault dek)
        (fun _ _ => False) (fun e s => e = .wrongPassphrase ∧ s = fs) :=
      openKeyed_wrong right found (Halts.of fun _ same => same)
    exact Triple.bind (refused.conseq (fun _ same => same) (fun _ h => h) (fun _ _ never => never)
      fun _ _ holds => holds.2) fun _ _ _ _ _ never => never.elim

end Programs

structure Survives (data : δ) (w : World δ) : Prop where
  ready : ∃ passphrase ∈ w.last :: w.setting, Ready data passphrase w.files
  plans : Plans w

/-- A passphrase is reset through a handle that holds the key of the database. -/
def Command.Current (w : World δ) : Command → Prop
  | .setPassphraseInputs handle => ∃ data, w.files .vault = .file (.database handle data)
  | _ => True

/-- Anything may be cut short; enrolments are bounded and no stale handle resets. -/
structure Careful (w : World δ) (command : Command) (choices : ℕ → Choice) : Prop where
  bounded : command.Bounded
  current : command.Current w

/-- A vault in use by any handles, with nothing planned. -/
def World.idle (files : Files δ) (handles : List Key) (last : Passphrase)
    (setting : List Passphrase) : World δ :=
  ⟨files, handles, [], [], [], [], [], last, setting, last, none⟩

theorem succeeded_eq_some {outcome : Outcome (Files δ) (Result α)} {a : α}
    (value : succeeded outcome = some a) : outcome.value? = some (.ok a) := by
  unfold succeeded at value
  split at value
  · rename_i found
    rw [found, Option.some.inj value]
  · cases value

section Steps

variable {data : δ} {w : World δ} {choices : ℕ → Choice}

variable (survives : Survives data w)
include survives

theorem Survives.openVesta [Inhabited δ] (passphrase : Passphrase) :
    Survives data (w.next choices (.openVesta passphrase)) := by
  obtain ⟨mine, there, ready⟩ := survives.ready
  have always (n : ℕ) : (fun _ : Choice => True) (choices n) := trivial
  simp only [World.next]
  by_cases right : passphrase = mine
  · subst right
    have spec : Triple (fun _ => True) _ _ _ _ _ := ready.openVesta_kept
    have kept : Kept data passphrase w.files (Vault.openVesta passphrase choices 0 w.files).final :=
      spec.final (fun _ h => h) (fun _ _ h => h.2) (fun _ _ never => never.elim) always rfl
    cases succeeded (Vault.openVesta passphrase choices 0 w.files) with
    | none => exact ⟨⟨passphrase, there, kept.ready⟩, survives.plans.moved kept.committed⟩
    | some handle =>
      have plans := survives.plans.moved kept.committed
      exact ⟨⟨passphrase, List.mem_cons_self, kept.ready⟩,
        plans.rotations, plans.resets, plans.plans, plans.slots⟩
  · have spec : Triple (fun _ => True) (· = w.files) _ _ _ _ :=
      ready.openVesta_wrong right (Halts.of fun _ same => same)
    have same : (Vault.openVesta passphrase choices 0 w.files).final = w.files :=
      spec.final (fun _ h => h) (fun _ _ never => never.elim) (fun _ _ h => h) always rfl
    cases value : succeeded (Vault.openVesta passphrase choices 0 w.files) with
    | none => rw [same]; exact survives
    | some handle => exact (spec.returned always rfl (succeeded_eq_some value)).elim

theorem Survives.openWithRecovery [Inhabited δ] (code : RecoveryCode) :
    Survives data (w.next choices (.openWithRecovery code)) := by
  obtain ⟨mine, there, ready⟩ := survives.ready
  have spec : Triple (fun _ => True) _ _ _ _ _ := ready.openWithRecovery_idle code
  have same : (Vault.openWithRecovery code choices 0 w.files).final = w.files :=
    spec.final (fun _ h => h) (fun _ _ h => h) (fun _ _ h => h) (fun _ => trivial) rfl
  simp only [World.next, same]
  cases succeeded (Vault.openWithRecovery code choices 0 w.files) with
  | none => exact survives
  | some handle => exact ⟨survives.ready, survives.plans.rotations, survives.plans.resets,
      survives.plans.plans, survives.plans.slots⟩

omit survives in
theorem Ready.snapshot {f : MetaV2 → α} {a : α} (ready : Ready data passphrase fs)
    (value : succeeded ((do
      let info ← readV2Meta
      pure (f info) : Program δ α) choices 0 fs) = some a) :
    ∃ dek slots, PasswordVault dek data passphrase slots fs ∧ a = f ⟨slots⟩ := by
  have spec : Triple (fun _ => True) (fun _ => True) (· = fs)
      (do
        let info ← readV2Meta
        pure (f info) : Program δ α)
      (fun a _ => ∃ dek slots, PasswordVault dek data passphrase slots fs ∧ a = f ⟨slots⟩)
      (fun _ _ => True) := by
    refine ready.onV2 (fun _ => trivial) fun dek slots vault => ?_
    exact Triple.known vault.readV2Meta_eq (Triple.pure _ fun _ _ => ⟨dek, slots, vault, rfl⟩)
  exact spec.returned (fun _ => trivial) rfl (succeeded_eq_some value)

theorem Survives.rotationInputs [Inhabited δ] (handle : Key) :
    Survives data (w.next choices (.rotationInputs handle)) := by
  obtain ⟨mine, there, ready⟩ := survives.ready
  simp only [World.next]
  cases value : succeeded (Vault.rotationInputs handle choices 0 w.files) with
  | none => exact survives
  | some inputs =>
    obtain ⟨dek, slots, vault, rfl⟩ := ready.snapshot value
    refine ⟨survives.ready, { survives.plans with rotations := ?_ }⟩
    refine List.forall_mem_cons.mpr ⟨⟨?_, vault.password.usable⟩, survives.plans.rotations⟩
    rw [vault.password.wrapped]
    exact vault.committed

theorem Survives.setPassphraseInputs [Inhabited δ] {handle : Key}
    (current : ∃ data, w.files .vault = .file (.database handle data)) :
    Survives data (w.next choices (.setPassphraseInputs handle)) := by
  obtain ⟨mine, there, ready⟩ := survives.ready
  simp only [World.next]
  cases value : succeeded (Vault.setPassphraseInputs handle choices 0 w.files) with
  | none => exact survives
  | some inputs =>
    obtain ⟨dek, slots, vault, rfl⟩ := ready.snapshot value
    refine ⟨survives.ready, { survives.plans with resets := ?_ }⟩
    exact List.forall_mem_cons.mpr
      ⟨⟨⟨current, vault.committed.sidecar⟩, vault.password.usable⟩, survives.plans.resets⟩

theorem Survives.planned {plan : Result RotationPlan} (made : ∀ made, plan = .ok made →
      ∃ dek, Committed dek w.files ∧ made.newPasswordSlot.For .password passphrase dek) :
    Survives data (w.planned passphrase plan) := by
  cases plan with
  | error e => exact survives
  | ok plan =>
    exact ⟨survives.ready, { survives.plans with
      plans := List.forall_mem_cons.mpr ⟨made plan rfl, survives.plans.plans⟩ }⟩

omit survives in
/-- The old passphrase proves that the slot holds the handle's key. -/
theorem planRotation_made {inputs : RotationInputs} {old new : Passphrase} {salt : Salt}
    (usable : inputs.passwordSlot.kdfParams.Usable)
    (planned : Vault.planRotation inputs old new salt = .ok plan) :
    plan.newPasswordSlot.For .password new inputs.passwordSlot.wrap.dek := by
  simp only [Vault.planRotation, unlockSlot, run_ok, Checked.ensure_eq_ok] at planned
  obtain ⟨unwrapped, ⟨slotKey, _, rfl⟩, same, slot, resealed, rfl⟩ := planned
  have made := resealPasswordSlot_made usable resealed
  unfold unwrap at same
  split at same
  · exact Option.some.inj same ▸ made
  · cases same

theorem Survives.applyRotation [Inhabited δ] {handle : Key} (held : (passphrase, plan) ∈ w.plans) :
    Survives data (w.next choices (.applyRotation handle passphrase plan)) := by
  obtain ⟨mine, there, ready⟩ := survives.ready
  obtain ⟨dek, committed, made⟩ := survives.plans.plans _ held
  obtain ⟨slots, vault⟩ := ready.vault committed
  have spec : Triple (fun _ => True) _ _ _ _ _ := vault.applyRotation_spec made
  have kept : Kept data mine w.files (Vault.applyRotation plan choices 0 w.files).final ∨
      Kept data passphrase w.files (Vault.applyRotation plan choices 0 w.files).final :=
    spec.final (fun _ h => h) (fun _ _ h => .inr h) (fun _ _ never => never.elim)
      (fun _ => trivial) rfl
  simp only [World.next]
  cases value : succeeded (Vault.applyRotation plan choices 0 w.files) with
  | none =>
    obtain kept | kept := kept
    · have plans := survives.plans.moved kept.committed
      refine ⟨⟨mine, ?_, kept.ready⟩, plans.rotations, plans.resets, plans.plans, plans.slots⟩
      obtain rfl | older := List.mem_cons.mp there
      · exact List.mem_cons_self
      · exact List.mem_cons_of_mem _ (List.mem_cons_of_mem _ older)
    · have plans := survives.plans.moved kept.committed
      exact ⟨⟨passphrase, List.mem_cons_of_mem _ List.mem_cons_self, kept.ready⟩,
        plans.rotations, plans.resets, plans.plans, plans.slots⟩
  | some _ =>
    have kept := spec.returned (fun _ => trivial) rfl (succeeded_eq_some value)
    have plans := survives.plans.moved kept.committed
    exact ⟨⟨passphrase, List.mem_cons_self, kept.ready⟩,
      plans.rotations, plans.resets, plans.plans, plans.slots⟩

/-- A program that keeps the passphrase keeps the vault, whatever it answers. -/
theorem Survives.enrolled {m : Program δ Unit} {code : Option RecoveryCode}
    (spec : ∀ passphrase, Ready data passphrase w.files →
      Triple (fun _ => True) (Kept data passphrase w.files) (· = w.files) m
        (fun _ => Kept data passphrase w.files) (fun _ => Kept data passphrase w.files)) :
    Survives data (w.enrolled (m choices 0 w.files).final code (succeeded (m choices 0 w.files))) := by
  obtain ⟨mine, there, ready⟩ := survives.ready
  have kept : Kept data mine w.files (m choices 0 w.files).final :=
    (spec mine ready).final (fun _ h => h) (fun _ _ h => h) (fun _ _ h => h) (fun _ => trivial) rfl
  have plans := survives.plans.moved kept.committed
  cases succeeded (m choices 0 w.files) with
  | none => exact ⟨⟨mine, there, kept.ready⟩, plans⟩
  | some _ => exact ⟨⟨mine, there, kept.ready⟩,
      plans.rotations, plans.resets, plans.plans, plans.slots⟩

theorem Survives.next [Inhabited δ] {command : Command} (held : w.Holds command)
    (careful : Careful w command choices) : Survives data (w.next choices command) := by
  cases command with
  | openVesta passphrase => exact survives.openVesta passphrase
  | openWithRecovery code => exact survives.openWithRecovery code
  | lock handle => exact ⟨survives.ready, { survives.plans with }⟩
  | rotationInputs handle => exact survives.rotationInputs handle
  | planRotation inputs old new =>
    obtain ⟨committed, usable⟩ := survives.plans.rotations _ held
    exact survives.planned fun made planned => ⟨_, committed, planRotation_made usable planned⟩
  | setPassphraseInputs handle => exact survives.setPassphraseInputs careful.current
  | planSetPassphrase inputs new =>
    obtain ⟨committed, usable⟩ := survives.plans.resets _ held
    refine survives.planned fun made planned => ⟨_, committed, ?_⟩
    obtain ⟨slot, resealed, same⟩ := bind_eq_ok.mp planned
    obtain rfl := Except.ok.inj same
    exact resealPasswordSlot_made usable resealed
  | applyRotation handle passphrase plan => exact survives.applyRotation held.2
  | recoveryEnrollInputs handle => exact ⟨survives.ready, { survives.plans with }⟩
  | planEnrollRecovery inputs params =>
    simp only [World.next]
    cases planned : Vault.planEnrollRecovery inputs params (choices 0).code (choices 0).salt with
    | error e => exact survives
    | ok made =>
      have bounded := (planEnrollRecovery_made careful.bounded planned).usable.bounded
      exact ⟨survives.ready, { survives.plans with
        slots := List.forall_mem_cons.mpr ⟨bounded, survives.plans.slots⟩ }⟩
  | applyEnrollRecovery handle code slot =>
    exact survives.enrolled fun _ ready =>
      ready.applyEnrollRecovery_spec (survives.plans.slots _ held.2)
  | removeRecovery handle => exact survives.enrolled fun _ ready => ready.removeRecovery_spec

end Steps

/-- Wherever the processes stopped, the passphrase last used or one that was being set opens
the data, and no attempt with a wrong passphrase or any recovery code changes a file. -/
theorem vault_survives [Inhabited δ] {data : δ} {files : Files δ} {handles : List Key}
    {last passphrase : Passphrase} {setting : List Passphrase} {w : World δ}
    (known : passphrase ∈ last :: setting) (ready : Ready data passphrase files)
    (reached : Reaches Careful (World.idle files handles last setting) w) :
    (∃ mine ∈ w.last :: w.setting, Opens w.files mine data) ∧
      (∀ other, ¬Opens w.files other data → ∀ choices : ℕ → Choice,
        (openVesta other choices 0 w.files).final = w.files) ∧
      ∀ code, ∀ choices : ℕ → Choice, (openWithRecovery code choices 0 w.files).final = w.files := by
  have survives : Survives data w := by
    refine reached.invariant ⟨⟨passphrase, known, ready⟩, nofun, nofun, nofun, nofun⟩ ?_
    exact fun _ _ _ survives held careful => survives.next held careful
  obtain ⟨mine, there, ready⟩ := survives.ready
  have opens : Opens w.files mine data := by
    intro choices calm
    have spec : Triple Calm (fun _ => False) (· = w.files) (openVesta mine)
        (fun handle _ => handle.data = data) (fun _ _ => False) :=
      (ready.openVesta_right Halts.calm).strengthen fun _ _ holds => holds.1
    obtain ⟨⟨key, found⟩, value, rfl⟩ := spec.returns (fun _ h => h) (fun _ _ h => h) calm 0 rfl
    exact ⟨key, value⟩
  refine ⟨⟨mine, there, opens⟩, fun other wrong choices => ?_, fun code choices => ?_⟩
  · have ne : other ≠ mine := by
      rintro rfl
      exact wrong opens
    have spec : Triple (fun _ => True) (· = w.files) _ _ _ _ :=
      ready.openVesta_wrong ne (Halts.of fun _ same => same)
    exact spec.final (fun _ h => h) (fun _ _ never => never.elim) (fun _ _ h => h) (fun _ => trivial) rfl
  · have spec : Triple (fun _ => True) _ _ _ _ _ := ready.openWithRecovery_idle code
    exact spec.final (fun _ h => h) (fun _ _ h => h) (fun _ _ h => h) (fun _ => trivial) rfl

def sampleLegacy : MetaV1 := ⟨sampleParams, zeroSalt⟩

/-- A v1 vault of the passphrase `[1]`. -/
def sampleLegacyFiles : Files ℕ
  | .vault => .file (.database (.derived [1] zeroSalt sampleParams) 7)
  | .sidecar => .file (.sidecar (.v1 sampleLegacy))
  | _ => .absent

theorem sampleLegacyFiles_ready : Ready 7 [1] sampleLegacyFiles := by
  have usable : sampleLegacy.kdfParams.Usable := ⟨by decide, by decide⟩
  exact .v1 usable rfl rfl trivial

/-- The process stops right after the ninth operation, the rekey of the migration. -/
def stopAtRekey (n : ℕ) : Choice := { sampleChoice with stop := n == 8 }

theorem vault_survives_rekey :
    let w := (World.idle sampleLegacyFiles [] [1] []).next stopAtRekey (.openVesta [1])
    w.files .vault = .file (.database (.random (Vector.replicate 32 1)) 7) ∧
      w.files .sidecar = .file (.sidecar (.v1 sampleLegacy)) ∧
      (∃ mine ∈ w.last :: w.setting, Opens w.files mine 7) ∧
      (∀ other, ¬Opens w.files other 7 → ∀ choices : ℕ → Choice,
        (openVesta other choices 0 w.files).final = w.files) ∧
      ∀ code, ∀ choices : ℕ → Choice, (openWithRecovery code choices 0 w.files).final = w.files :=
  ⟨rfl, rfl, vault_survives List.mem_cons_self sampleLegacyFiles_ready
    (.tail .refl (.openVesta [1]) stopAtRekey trivial ⟨trivial, trivial⟩)⟩

/-- After an enrolment with one pass too many no passphrase in use opens the vault. -/
theorem unbounded_enrolment_strands_user :
    Reaches (fun _ _ choices => ∀ n, Calm (choices n))
      (World.idle (sampleFiles (.file (.database sampleDek 7))) [sampleDek] [1] [])
      (sampleEnrolled ⟨19456, 17, 1⟩) ∧
      Ready 7 [1] (sampleFiles (.file (.database sampleDek 7))) ∧
      ¬∃ mine ∈ (sampleEnrolled ⟨19456, 17, 1⟩).last :: (sampleEnrolled ⟨19456, 17, 1⟩).setting,
        Opens (sampleEnrolled ⟨19456, 17, 1⟩).files mine 7 := by
  refine ⟨sampleEnrolled_reached (by decide) fun _ _ _ _ => rfl, .v2 sampleWorld_vault.base, ?_⟩
  rintro ⟨mine, there, opens⟩
  obtain rfl : mine = [1] := List.mem_singleton.mp there
  obtain ⟨key, value⟩ := opens (fun _ => sampleChoice) fun _ => rfl
  cases value

end TerrapiVault.Vault
