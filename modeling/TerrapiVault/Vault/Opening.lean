import TerrapiVault.Vault.Programs

/-! Which credential opens which vault. A slot made for a credential gives up its key to
that credential and to no other; the specifications of the reading programs follow. -/
namespace TerrapiVault.Vault
open CrashLogic

variable {δ : Type}

/-- Opening with the passphrase, undisturbed, returns the data. -/
def Opens [Inhabited δ] (fs : Files δ) (passphrase : Passphrase) (data : δ) : Prop :=
  ∀ choices : ℕ → Choice, (∀ n, Calm (choices n)) →
    ∃ key, (openVesta passphrase choices 0 fs).value? = some (.ok ⟨key, data⟩)

/-- The parameters derive a key and survive being read back. -/
structure KdfParams.Usable (p : KdfParams) : Prop where
  accepted : p.Accepted
  bounded : p.Bounded

/-- The slot wraps `dek` under the secret. -/
structure KeySlot.For (slot : KeySlot) (name : SlotName) (secret : List UInt8) (dek : Key) : Prop where
  usable : slot.kdfParams.Usable
  wrapped : slot.wrap = Vault.wrap (.derived secret slot.salt slot.kdfParams) dek name

variable {salt : Salt} {params : KdfParams} {slot : KeySlot} {dek : Key} {passphrase : Passphrase}
  {name : Name}

theorem deriveKey_inj {secret secret' : List UInt8} :
    Key.derived secret salt params = Key.derived secret' salt params ↔ secret = secret' := by
  simp

theorem KeySlot.For.unlock {secret : Passphrase} (made : slot.For .password secret dek)
    (passphrase : Passphrase) :
    unlockSlot slot passphrase = .ok (if secret = passphrase then some dek else none) := by
  rw [unlockSlot, deriveKey, deriveKeyFromBytes_of made.usable.accepted, ok_bind,
    made.wrapped, unwrap_wrap]
  simp only [deriveKey_inj]
  rfl

theorem KeySlot.For.unlockRecovery {secret : RecoveryCode}
    (made : slot.For .recovery secret.bytes.toList dek) (code : RecoveryCode) :
    unlockRecovery slot code =
      if secret = code then .ok dek else .error .wrongRecoveryCode := by
  have same : secret.bytes.toList = code.bytes.toList ↔ secret = code := by
    cases secret
    cases code
    simp [Vector.toList_inj]
  rw [Vault.unlockRecovery, deriveKeyFromBytes_of made.usable.accepted, ok_bind,
    made.wrapped, unwrap_wrap]
  simp only [deriveKey_inj, same]
  by_cases equal : secret = code <;> simp [equal]

theorem resealPasswordSlot_for (usable : params.Usable) :
    ∃ slot, resealPasswordSlot dek passphrase params salt = .ok slot ∧
      slot.For .password passphrase dek ∧ slot.kdfParams = params := by
  refine ⟨⟨params, salt, wrap (.derived passphrase salt params) dek .password⟩, ?_, ⟨usable, rfl⟩, rfl⟩
  rw [resealPasswordSlot, deriveKey, deriveKeyFromBytes_of usable.accepted]
  rfl

theorem resealPasswordSlot_made (usable : params.Usable)
    (resealed : resealPasswordSlot dek passphrase params salt = .ok slot) :
    slot.For .password passphrase dek := by
  obtain ⟨slot', resealed', made, _⟩ := resealPasswordSlot_for usable
  obtain rfl := ok_unique resealed resealed'
  exact made

theorem planEnrollRecovery_made {inputs : RecoveryEnrollInputs} {code : RecoveryCode}
    {made : RecoveryCode × KeySlot} (bounded : params.Bounded)
    (planned : planEnrollRecovery inputs params code salt = .ok made) :
    made.2.For .recovery made.1.bytes.toList inputs.dek := by
  obtain ⟨slotKey, derived, same⟩ := bind_eq_ok.mp planned
  obtain ⟨accepted, rest⟩ := Checked.ensure_bind_eq_ok.mp derived
  obtain rfl := Except.ok.inj rest
  obtain rfl := Except.ok.inj same
  exact ⟨⟨accepted, bounded⟩, rfl⟩

theorem KdfParams.Usable.floored {p : KdfParams} (usable : p.Usable) : p.floored.Usable :=
  ⟨usable.accepted.floored, usable.bounded.floored⟩

section Specs

variable {allow : Choice → Prop} {crash pre : Files δ → Prop} {fail : Error → Files δ → Prop}

theorem readMeta_spec {info : StoredMeta} (bounded : info.Bounded)
    (found : ∀ fs, pre fs → fs.read name = some (.sidecar info)) :
    Triple allow crash pre (readMeta name) (fun r fs => r = info ∧ pre fs) fail := by
  refine Triple.known (Triple.look found) (Triple.checked ?_)
  exact StoredMeta.parse_eq_ok.mpr ⟨rfl, bounded⟩

theorem refused_spec {α β : Type} {r : Result α} {e : Error} {f : α → Program δ β}
    {last : β → Files δ → Prop} (refused : r = .error e) :
    Triple allow crash pre (Script.ofExcept r >>= f) last (fun e' fs => e' = e ∧ pre fs) := by
  subst refused
  exact fun _ _ _ _ holds => ⟨rfl, holds⟩

theorem discard_spec {post : Files δ → Prop} (gone : ∀ fs, pre fs → post (fs.put name .absent))
    (stops : Halts allow crash post) : Triple allow crash pre (discard name) (fun _ => post) fail :=
  act_spec (fun c fs allowed holds stop => stops c _ allowed stop (gone fs holds)) (fun _ fs _ _ holds _ => gone fs holds)
    (fun _ _ _ _ _ failed => nomatch failed)

variable [Inhabited δ]

theorem openKeyed_spec {key : Key} {data : δ}
    (found : ∀ fs, pre fs → ∃ at', fs.located name = some at' ∧ fs at' = .file (.database key data))
    (stops : Halts allow crash pre) :
    Triple allow crash pre (openKeyed name key) (fun r fs => r = data ∧ pre fs) fail := by
  refine act_spec ?_ ?_ ?_
  · intro c fs allowed holds stop
    obtain ⟨_, located, file⟩ := found fs holds
    simpa [located, file] using stops c fs allowed stop holds
  · intro c fs r _ holds opened
    obtain ⟨_, located, file⟩ := found fs holds
    simp only [located, file, if_true, Except.ok.injEq] at opened ⊢
    exact ⟨opened.symm, holds⟩
  · intro c fs e _ holds failed
    obtain ⟨_, located, file⟩ := found fs holds
    simp [located, file] at failed

theorem openKeyed_wrong {key key' : Key} {data : δ} (wrong : key' ≠ key)
    (found : ∀ fs, pre fs → ∃ at', fs.located name = some at' ∧ fs at' = .file (.database key' data))
    (stops : Halts allow crash pre) :
    Triple allow crash pre (openKeyed name key) (fun _ _ => False)
      (fun e fs => e = .wrongPassphrase ∧ pre fs) := by
  refine act_spec ?_ ?_ ?_
  · intro c fs allowed holds stop
    obtain ⟨_, located, file⟩ := found fs holds
    simpa [located, file, wrong] using stops c fs allowed stop holds
  · intro c fs r _ holds opened
    obtain ⟨_, located, file⟩ := found fs holds
    simp [located, file, wrong] at opened
  · intro c fs e _ holds failed
    obtain ⟨_, located, file⟩ := found fs holds
    simp only [located, file, wrong, if_false, Except.error.injEq] at failed ⊢
    exact ⟨failed.symm, holds⟩

end Specs

/-- A sidecar whose password slot gives up the key of the database opens it. -/
theorem opens_of_unlocked [Inhabited δ] {fs : Files δ} {info : MetaV2} {data : δ} {at' : Name}
    (sidecar : fs.read .sidecar = some (.sidecar (.v2 info))) (bounded : info.Bounded)
    (unlocked : unlockSlot info.slots.password passphrase = .ok (some dek))
    (located : fs.located .vault = some at') (database : fs at' = .file (.database dek data)) :
    Opens fs passphrase data := by
  intro choices calm
  have spec : Triple Calm (fun _ => False) (· = fs) (openVesta passphrase)
      (fun handle _ => handle = ⟨dek, data⟩) (fun _ _ => False) := by
    refine Triple.known (readMeta_spec bounded fun s same => same ▸ sidecar) ?_
    refine Triple.known (Triple.checked unlocked) ?_
    refine Triple.known (openKeyed_spec (fun s same => ⟨at', same ▸ located, same ▸ database⟩) Halts.calm) ?_
    have cleaned : Triple Calm (fun _ => False) (· = fs) (discard .staged) (fun _ _ => True)
        (fun _ _ => False) := discard_spec (fun _ _ => trivial) Halts.calm
    refine Triple.bind cleaned fun _ => ?_
    exact Triple.pure _ fun _ _ => rfl
  obtain ⟨handle, returned, rfl⟩ := spec.returns (fun _ h => h) (fun _ _ h => h) calm 0 rfl
  exact ⟨dek, returned⟩

def zeroSalt : Salt := Vector.replicate 16 0

def sampleDek : Key := .random (Vector.replicate 32 0)

def sampleParams : KdfParams := ⟨19456, 2, 1⟩

def sampleInfo : MetaV2 :=
  .fresh ⟨sampleParams, zeroSalt, wrap (.derived [1] zeroSalt sampleParams) sampleDek .password⟩

/-- A vault of the passphrase `[1]` with the given entry at its database path. -/
def sampleFiles (database : Entry ℕ) : Files ℕ
  | .vault => database
  | .sidecar => .file (.sidecar (.v2 sampleInfo))
  | .other 0 => .file (.database sampleDek 7)
  | _ => .absent

def sampleChoice : Choice := ⟨false, zeroSalt, Vector.replicate 32 1, ⟨Vector.replicate 20 0⟩⟩

theorem sampleFiles_opens {database : Entry ℕ} {found : Name}
    (located : (sampleFiles database).located .vault = some found)
    (there : sampleFiles database found = .file (.database sampleDek 7)) :
    Opens (sampleFiles database) [1] 7 :=
  opens_of_unlocked rfl (by decide) (by decide) located there

end TerrapiVault.Vault
