import Mathlib
import YasbLimitora.ConfigApply.Apply

/-!
# What the body of the lease makes of the configuration file

An answer about the configuration file is *truthful* (`YasbLimitora.ConfigApply.Truthful`) if `ok`
means that the file is the merged document and that a backup has what was there before, and if any
refusal but `config-rollback-failed` means that the file is as it was.

The body of the `with` statement of `_config_gate_one` is followed here from one call to the next,
each of which may raise. Every function has one lemma that says what it may come to, whatever its
calls do, and its callers use the lemma and not the function:

* what is read changes nothing (`YasbLimitora.ConfigApply.ensures_snapshotFromOwned`);
* a write replaces the file or leaves it as it was, since the new content is put in its place by one
  call (`YasbLimitora.ConfigApply.ensures_atomicConfigWrite`);
* what is accepted after the replacement is the merged document, and the pruning of the backups
  leaves the one that was made (`YasbLimitora.ConfigApply.ensures_checkReplaced`): the pattern of the
  names to remove is not the pattern of the names that are given;
* a rollback that returns has put back what was there, and raises nothing but `OSError`
  (`YasbLimitora.ConfigApply.ensures_rollbackConfigWrite`), which is why the `except OSError` around
  it is enough.

So the body settles what it answers, `YasbLimitora.ConfigApply.ensures_leaseBody`: its answer is
truthful, and where it raises the file is as it was. Giving the lease up comes after all this, in
`YasbLimitora.ConfigApply.Gate`.
-/

namespace YasbLimitora

namespace ConfigApply

open SetupAssist YasbLimitora.Config Faults
open Json (Fields)

section Body

variable {f : Files}

abbrev Ensures {α : Type} (t : Filing α) (f : Files) (Q : Except Raised α → Files → Prop) : Prop :=
  Faults.Ensures FileCall.perform t f Q

/-- Nothing but `OSError` is raised. -/
def OnlyOsError {α : Type} (x : Except Raised α) : Prop := ∀ e, x = .error e → e = .osError

theorem onlyOsError_ok {α : Type} (a : α) : OnlyOsError (.ok a : Except Raised α) := nofun

theorem onlyOsError_error {α : Type} : OnlyOsError (.error .osError : Except Raised α) :=
  fun _ he => (Except.error.inj he).symm

/-! ### Calls that change nothing -/

theorem ensures_checkOwned : Ensures checkOwned f fun x f' => f' = f ∧ OnlyOsError x := by
  refine .bind (.call ⟨rfl, onlyOsError_error⟩ ?_)
  show Ensures (if f.owned then _ else _) f _
  split
  · exact .pure ⟨rfl, onlyOsError_ok _⟩
  · exact .throw ⟨rfl, onlyOsError_error⟩

/-- A check of the lease before all else. -/
theorem ensures_checkOwned_bind {α : Type} {t : Unit → Filing α} {Q : Except Raised α → Files → Prop}
    (herror : Q (.error .osError) f) (h : Ensures (t ()) f Q) : Ensures (checkOwned >>= t) f Q := by
  refine .bind (ensures_checkOwned.conseq fun x f' hx => ?_)
  obtain ⟨rfl, hos⟩ := hx
  rcases x with e | ⟨⟩
  · rw [hos e rfl]
    exact herror
  · exact h

theorem ensures_readGateOneConfig : Ensures readGateOneConfig f fun x f' =>
    f' = f ∧ OnlyOsError x ∧ ∀ data, x = .ok data → data = f.config := by
  refine .bind (.call ⟨rfl, onlyOsError_error, nofun⟩ ?_)
  dsimp only [FileCall.perform]
  rcases f.config with _ | raw
  · exact .pure ⟨rfl, onlyOsError_ok _, fun data hdata => (Except.ok.inj hdata).symm⟩
  · show Ensures (if MAX_CONFIG_BYTES < raw.length then _ else _) f _
    split
    · exact .throw ⟨rfl, onlyOsError_error, nofun⟩
    · exact .pure ⟨rfl, onlyOsError_ok _, fun data hdata => (Except.ok.inj hdata).symm⟩

theorem ensures_configExists : Ensures configExists f fun x f' => f' = f ∧ ∃ found, x = .ok found := by
  refine .bind (.tried (.pure ⟨rfl, _, rfl⟩) ?_)
  exact .pure ⟨rfl, _, rfl⟩

theorem ensures_runnerIsFile (runner : Option Text) :
    Ensures (runnerIsFile runner) f fun x f' => f' = f ∧ ∃ isFile, x = .ok isFile := by
  rcases runner with _ | runner
  · exact .pure ⟨rfl, _, rfl⟩
  · refine .bind (.tried (.pure ⟨rfl, _, rfl⟩) ?_)
    exact .pure ⟨rfl, _, rfl⟩

theorem ensures_readinessWarnings {F : Type} (config : LocalConfig F) (apiKey : Bool) :
    Ensures (readinessWarnings config apiKey) f fun x f' => f' = f ∧ ∃ warnings, x = .ok warnings := by
  unfold readinessWarnings
  by_cases henabled : config.codex.enabled
  · simp only [henabled, if_true]
    refine .bind ((ensures_runnerIsFile _).conseq ?_)
    rintro x f' ⟨rfl, isFile, rfl⟩
    exact .pure ⟨rfl, _, rfl⟩
  · simp only [henabled]
    exact .bind (.pure (.pure ⟨rfl, _, rfl⟩))

/-- **The snapshot** is of the file as it is. -/
theorem ensures_snapshotFromOwned {F : Type} (floats : Floats F) (limit : ℕ) :
    Ensures (snapshotFromOwned floats limit) f fun x f' =>
      f' = f ∧ ∀ snapshot, x = .ok snapshot → snapshot.raw = f.config := by
  refine ensures_checkOwned_bind ⟨rfl, nofun⟩ ?_
  refine .bind (ensures_readGateOneConfig.conseq fun x f' hx => ?_)
  obtain ⟨rfl, -, hdata⟩ := hx
  rcases x with e | data
  · exact ⟨rfl, nofun⟩
  obtain rfl := hdata data rfl
  dsimp only
  rcases hconfig : f'.config with _ | raw
  · refine .bind (ensures_configExists.conseq fun x f' hx => ?_)
    obtain ⟨rfl, found, rfl⟩ := hx
    show Ensures (if found then _ else _) f' _
    split
    · exact .throw ⟨rfl, nofun⟩
    · exact .pure ⟨rfl, fun snapshot h => by rw [← Except.ok.inj h]⟩
  · dsimp only
    split
    · exact .pure ⟨rfl, fun snapshot h => by rw [← Except.ok.inj h]⟩
    · exact .throw ⟨rfl, nofun⟩
    · exact .throw ⟨rfl, nofun⟩

/-! ### Writes -/

/-- There is a backup of this name, and each of this name holds these bytes. -/
structure IsBackup (name : Text) (raw : Bytes) (f : Files) : Prop where
  kept : isBackupName name = false
  exists_name : ∃ b ∈ f.backups, b.name = name
  content : ∀ b ∈ f.backups, b.name = name → b.content = raw

theorem IsBackup.readBackup {name : Text} {raw : Bytes} (h : IsBackup name raw f) :
    (FileCall.perform (.readBackup name) f).1 = some raw := by
  obtain ⟨b, hb, hname⟩ := h.exists_name
  rcases hfind : f.backups.find? (fun b => decide (b.name = name)) with _ | b'
  · exact absurd (decide_eq_true hname) (List.find?_eq_none.1 hfind b hb)
  · have hcontent := h.content b' (List.mem_of_find?_eq_some hfind)
      (of_decide_eq_true (@List.find?_some _ (fun b : Backup => decide (b.name = name)) _ _ hfind))
    exact (congrArg (Option.map Backup.content) hfind).trans (congrArg some hcontent)

theorem isBackupName_backupName (stamp : ℕ) : isBackupName (backupName stamp) = false := by
  have hstart : (backupName stamp).take 7 = Text.ofString "config." := List.take_left' rfl
  unfold isBackupName
  rw [hstart]
  exact decide_eq_false fun h => absurd h.1 (by decide)

/-- The backups of a name are written, if there are any. -/
theorem isBackup_writeBackup {name : Text} (raw : Bytes) (hkept : isBackupName name = false)
    (hexists : ∃ b ∈ f.backups, b.name = name) :
    IsBackup name raw (FileCall.perform (.writeBackup name raw) f).2 := by
  refine ⟨hkept, ?_, ?_⟩
  · obtain ⟨b, hb, hname⟩ := hexists
    refine ⟨_, List.mem_map.2 ⟨b, hb, rfl⟩, ?_⟩
    rw [if_pos hname]
    exact hname
  · intro b hb hname
    obtain ⟨b', -, rfl⟩ := List.mem_map.1 hb
    by_cases h : b'.name = name
    · rw [if_pos h]
    · rw [if_neg h] at hname
      exact absurd hname h

/-- **A backup is made** of the bytes, and the configuration left as it is. -/
theorem ensures_createConfigBackup (raw : Bytes) : Ensures (createConfigBackup raw) f fun x f' =>
    f'.config = f.config ∧ ∀ name, x = .ok name → IsBackup name raw f' := by
  refine .bind (.call ⟨rfl, nofun⟩ ?_)
  refine .bind (.call ⟨rfl, nofun⟩ ?_)
  refine .bind (.call ⟨rfl, nofun⟩ (.pure ⟨rfl, fun name hname => ?_⟩))
  obtain rfl := Except.ok.inj hname
  exact isBackup_writeBackup raw (isBackupName_backupName _)
    ⟨_, List.mem_append_right _ List.mem_cons_self, rfl⟩

/-- **A write replaces the file, or changes nothing of it.** -/
theorem ensures_atomicConfigWrite (data : Bytes) : Ensures (atomicConfigWrite data) f fun x f' =>
    f'.backups = f.backups ∧ match x with
      | .ok _ => f'.config = some data
      | .error e => e = .osError ∧ f'.config = f.config := by
  refine .bind (.call ⟨rfl, rfl, rfl⟩ ?_)
  have hcleanup : ∀ {f' : Files}, f'.backups = f.backups → f'.config = f.config →
      Ensures (Transaction.tried FileCall.removeTemporary >>= fun _ => (throw .osError : Filing Unit)) f'
        fun x f'' => f''.backups = f.backups ∧ match x with
          | .ok _ => f''.config = some data
          | .error e => e = .osError ∧ f''.config = f.config := by
    intro f' hbackups hconfig
    refine .bind (.tried (.throw ⟨hbackups, rfl, hconfig⟩) (.throw ⟨hbackups, rfl, hconfig⟩))
  refine .bind (.outcome (.bind (.call (hcleanup rfl rfl) ?_)))
  refine .bind (.call (hcleanup rfl rfl) ?_)
  exact .pure (.pure ⟨rfl, rfl⟩)

/-- Backups are removed whose names the pattern of backups has. -/
theorem ensures_removeBackups (backups : List Backup) (hnames : ∀ b ∈ backups, isBackupName b.name = true)
    {name : Text} {raw : Bytes} (hbackup : IsBackup name raw f) :
    Ensures (removeBackups backups) f fun _ f' => f'.config = f.config ∧ IsBackup name raw f' := by
  induction backups generalizing f with
  | nil => exact .pure ⟨rfl, hbackup⟩
  | cons b rest ih =>
    have hne : name ≠ b.name := by
      rintro rfl
      exact absurd (hnames b List.mem_cons_self) (by rw [hbackup.kept]; decide)
    refine .bind (.call ⟨rfl, hbackup⟩ ?_)
    refine (ih (fun b hb => hnames b (List.mem_cons_of_mem _ hb)) ⟨hbackup.kept, ?_, ?_⟩).conseq ?_
    · obtain ⟨b', hb', rfl⟩ := hbackup.exists_name
      exact ⟨b', List.mem_filter.2 ⟨hb', decide_eq_true hne⟩, rfl⟩
    · exact fun b' hb' => hbackup.content b' (List.mem_of_mem_filter hb')
    · exact fun x f' hx => hx

/-- **Pruning** leaves the configuration and the backup that was made. -/
theorem ensures_pruneConfigBackups {name : Text} {raw : Bytes} (hbackup : IsBackup name raw f) :
    Ensures pruneConfigBackups f fun _ f' => f'.config = f.config ∧ IsBackup name raw f' := by
  refine .bind (.call ⟨rfl, hbackup⟩ (ensures_removeBackups _ (fun b hb => ?_) hbackup))
  have hlisted := List.mem_mergeSort.1 (List.mem_of_mem_take hb)
  exact (Bool.and_eq_true_iff.1 (List.mem_filter.1 hlisted).2).1

/-- What there is of a backup of what was there, if there was a file. -/
def BackedUp (raw : Option Bytes) (backup : Option Text) (f : Files) : Prop :=
  match raw, backup with
  | none, none => True
  | some raw, some name => IsBackup name raw f
  | _, _ => False

/-- A backup that is there holds the bytes. -/
theorem BackedUp.exists_backup {raw : Bytes} {backup : Option Text}
    (h : BackedUp (some raw) backup f) : ∃ b ∈ f.backups, b.content = raw := by
  rcases backup with _ | name
  · exact h.elim
  · obtain ⟨b, hb, hname⟩ := h.exists_name
    exact ⟨b, hb, h.content b hb hname⟩

theorem BackedUp.of_backups_eq {raw : Option Bytes} {backup : Option Text} {f' : Files}
    (h : BackedUp raw backup f) (hbackups : f'.backups = f.backups) : BackedUp raw backup f' := by
  rcases raw with _ | raw <;> rcases backup with _ | name
  · exact h
  · exact h
  · exact h
  · exact ⟨h.kept, hbackups ▸ h.exists_name, hbackups ▸ h.content⟩

theorem ensures_backUp (raw : Option Bytes) : Ensures (backUp raw) f fun x f' =>
    f'.config = f.config ∧ ∀ backup, x = .ok backup → BackedUp raw backup f' := by
  rcases raw with _ | raw
  · exact .pure ⟨rfl, fun backup h => Except.ok.inj h ▸ trivial⟩
  · refine .bind ((ensures_createConfigBackup raw).conseq fun x f' hx => ?_)
    rcases x with e | name
    · exact ⟨hx.1, nofun⟩
    · exact .pure ⟨hx.1, fun backup h => Except.ok.inj h ▸ hx.2 name rfl⟩

/-- **The replacement**: what was there is backed up and the file replaced, or the file is
as it was. -/
theorem ensures_replaceBy (raw : Option Bytes) (merged : Bytes) :
    Ensures (replaceBy raw merged) f fun x f' => match x with
      | .ok backup => f'.config = some merged ∧ BackedUp raw backup f'
      | .error _ => f'.config = f.config := by
  refine .bind ((ensures_backUp raw).conseq fun x f₁ hx => ?_)
  obtain ⟨hconfig, hbackup⟩ := hx
  rcases x with e | backup
  · exact hconfig
  refine ensures_checkOwned_bind hconfig (.bind ((ensures_atomicConfigWrite merged).conseq fun x f₂ hx => ?_))
  obtain ⟨hbackups, hx⟩ := hx
  rcases x with e | ⟨⟩
  · exact hx.2.trans hconfig
  · exact .pure ⟨hx, (hbackup backup rfl).of_backups_eq hbackups⟩

/-- **What is accepted after the replacement** is the merged document. -/
theorem ensures_checkReplaced {F : Type} (floats : Floats F) (limit : ℕ) (floatTexts : FloatTexts)
    {raw : Option Bytes} {backup : Option Text} (merged : Bytes) (selected : Fields)
    (hbackup : BackedUp raw backup f) :
    Ensures (checkReplaced floats limit floatTexts raw merged selected) f fun x f' =>
      f'.config = f.config ∧ BackedUp raw backup f' ∧ (x = .ok () → f.config = some merged) := by
  refine ensures_checkOwned_bind ⟨rfl, hbackup, nofun⟩ ?_
  refine .bind (ensures_readGateOneConfig.conseq fun x f' hx => ?_)
  obtain ⟨rfl, -, hdata⟩ := hx
  rcases x with e | data
  · exact ⟨rfl, hbackup, nofun⟩
  obtain rfl := hdata data rfl
  rcases hconfig : f'.config with _ | reread
  · exact .bind (.throw ⟨hconfig, hbackup, nofun⟩)
  refine .bind (.pure ?_)
  dsimp only
  split
  · exact .throw ⟨hconfig, hbackup, nofun⟩
  by_cases hverify : verifyConfigReread floatTexts (raw.getD [0x7B, 0x7D]) reread merged selected
  · obtain rfl := eq_of_verifyConfigReread hverify
    rw [if_pos hverify]
    rcases raw with _ | raw
    · exact .pure ⟨hconfig, hbackup, fun _ => rfl⟩
    · rcases backup with _ | name
      · exact hbackup.elim
      · exact (ensures_pruneConfigBackups hbackup).conseq fun x f'' hx =>
          ⟨hx.1.trans hconfig, hx.2, fun _ => rfl⟩
  · rw [if_neg hverify]
    exact .throw ⟨hconfig, hbackup, nofun⟩

/-- **A rollback that succeeds** puts back what was there. Any other raises `OSError`. -/
theorem ensures_rollbackConfigWrite {raw : Option Bytes} {backup : Option Text}
    (hbackup : BackedUp raw backup f) : Ensures (rollbackConfigWrite backup) f fun x f' =>
      OnlyOsError x ∧ (x = .ok () → f'.config = raw) := by
  have herror : OnlyOsError (.error .osError : Except Raised Unit) ∧
      ((.error .osError : Except Raised Unit) = .ok () → f.config = raw) := ⟨onlyOsError_error, nofun⟩
  refine ensures_checkOwned_bind herror ?_
  rcases raw with _ | raw <;> rcases backup with _ | name
  · refine .bind (.call ⟨onlyOsError_error, nofun⟩ (ensures_checkOwned_bind ⟨onlyOsError_error, nofun⟩ ?_))
    refine .bind (ensures_configExists.conseq fun x f' hx => ?_)
    obtain ⟨rfl, found, rfl⟩ := hx
    show Ensures (if found then _ else _) _ _
    split
    · exact .throw ⟨onlyOsError_error, nofun⟩
    · exact .pure ⟨onlyOsError_ok _, fun _ => rfl⟩
  · exact hbackup.elim
  · exact hbackup.elim
  · refine .bind (.call herror ?_)
    rw [hbackup.readBackup]
    refine .bind (.pure (ensures_checkOwned_bind herror ?_))
    refine .bind ((ensures_atomicConfigWrite raw).conseq fun x f' hx => ?_)
    rcases x with e | ⟨⟩
    · rw [hx.2.1]
      exact ⟨onlyOsError_error, nofun⟩
    refine ensures_checkOwned_bind ⟨onlyOsError_error, nofun⟩ ?_
    refine .bind (ensures_readGateOneConfig.conseq fun y f'' hy => ?_)
    obtain ⟨rfl, hos, -⟩ := hy
    rcases y with e | reread
    · rw [hos e rfl]
      exact ⟨onlyOsError_error, nofun⟩
    show Ensures (if reread = some raw then _ else _) _ _
    split
    · exact .pure ⟨onlyOsError_ok _, fun _ => hx.2⟩
    · exact .throw ⟨onlyOsError_error, nofun⟩

/-! ### The answer of the body -/

section Answers

variable (floatTexts : FloatTexts) (selection : Option (Json Text))

/-- The merged document of a selection and of what was there. -/
def IsMerged (before : Option Bytes) (merged : Bytes) : Prop :=
  ∃ given selected, selection = some given ∧ validConfigSelection given = some selected ∧
    mergeConfigSelection floatTexts (before.getD [0x7B, 0x7D]) selected = some merged

/-- **An answer is truthful** about what became of the configuration. -/
structure Truthful (before : Option Bytes) (x : Except Raised Reply) (after : Files) : Prop where
  ok : ∀ warnings, x = .ok (.ok warnings) →
    (∃ merged, IsMerged floatTexts selection before merged ∧ after.config = some merged) ∧
      ∀ raw, before = some raw → ∃ b ∈ after.backups, b.content = raw
  refused : ∀ reason diagnostics, x = .ok (.refused reason diagnostics) →
    reason ≠ "config-rollback-failed" → after.config = before

variable {floatTexts selection} {before : Option Bytes}

/-- A refusal of what is as it was. -/
theorem Truthful.unchanged {reason : String} {diagnostics : List Diagnostic} (h : f.config = before) :
    Truthful floatTexts selection before (.ok (.refused reason diagnostics)) f :=
  ⟨nofun, fun _ _ _ _ => h⟩

theorem Truthful.raised {e : Raised} : Truthful floatTexts selection before (.error e) f :=
  ⟨nofun, nofun⟩

theorem Truthful.rollbackFailed :
    Truthful floatTexts selection before (.ok (.refused "config-rollback-failed" [])) f := by
  refine ⟨nofun, fun reason diagnostics h hne => ?_⟩
  cases h
  exact absurd rfl hne

variable (floatTexts selection before) in
/-- What is truthful, and raises only where all is as it was. -/
def Settles (x : Except Raised Reply) (f : Files) : Prop :=
  Truthful floatTexts selection before x f ∧ ∀ e, x = .error e → f.config = before

theorem settles_refused {reason : String} {diagnostics : List Diagnostic} (h : f.config = before) :
    Settles floatTexts selection before (.ok (.refused reason diagnostics)) f := ⟨.unchanged h, nofun⟩

theorem settles_error {e : Raised} (h : f.config = before) :
    Settles floatTexts selection before (.error e) f := ⟨.raised, fun _ _ => h⟩

/-- What a change of neither the configuration nor the backups leaves. -/
theorem Settles.of_eq {x : Except Raised Reply} {f' : Files} (h : Settles floatTexts selection before x f)
    (hconfig : f'.config = f.config) (hbackups : f'.backups = f.backups) :
    Settles floatTexts selection before x f' := by
  obtain ⟨⟨hok, hrefused⟩, herror⟩ := h
  refine ⟨⟨?_, ?_⟩, ?_⟩
  · rw [hconfig, hbackups]
    exact hok
  · rw [hconfig]
    exact hrefused
  · rw [hconfig]
    exact herror

variable {F : Type} (floats : Floats F) (limit : ℕ)

/-- **The write** settles what it answers. -/
theorem ensures_writeConfig {merged : Bytes} {selected : Fields} (warnings : List Warning)
    (hmerged : IsMerged floatTexts selection f.config merged) :
    Ensures (writeConfig floats limit floatTexts f.config merged selected warnings) f
      (Settles floatTexts selection f.config) := by
  refine .bind (.outcome ((ensures_replaceBy f.config merged).conseq fun x f₁ hx => ?_))
  rcases x with e | backup
  · exact .pure (settles_refused hx)
  obtain ⟨hconfig, hbackup⟩ := hx
  refine .bind (.outcome ((ensures_checkReplaced floats limit floatTexts merged selected hbackup).conseq
    fun x f₂ hx => ?_))
  obtain ⟨hsame, hbackup, -⟩ := hx
  rcases x with e | ⟨⟩
  · refine .bind (.outcome ((ensures_rollbackConfigWrite hbackup).conseq fun x f₃ hx => ?_))
    obtain ⟨hos, hrestored⟩ := hx
    rcases x with e | ⟨⟩
    · rw [hos e rfl]
      exact .pure ⟨.rollbackFailed, nofun⟩
    · exact .pure (settles_refused (hrestored rfl))
  · refine .pure ⟨⟨fun _ _ => ⟨⟨merged, hmerged, hsame.trans hconfig⟩, fun raw hraw => ?_⟩, nofun⟩, nofun⟩
    rw [hraw] at hbackup
    exact hbackup.exists_backup

/-- What the merged configuration is of. -/
theorem isMerged_of_mergedConfig {given : Json Text} {selected : Fields} {result : Bytes × LocalConfig F}
    (hselected : validConfigSelection given = some selected)
    (h : mergedConfig floats limit floatTexts before selected = .ok result) :
    IsMerged floatTexts (some given) before result.1 := by
  unfold mergedConfig at h
  split at h
  · cases h
  · rename_i merged hmerged
    rcases hvalid : validateConfigDocument floats limit false merged with e | valid
    · rw [hvalid] at h
      cases h
    · rw [hvalid] at h
      obtain rfl := Except.ok.inj h
      exact ⟨given, selected, rfl, hselected, hmerged⟩

theorem ensures_consumeConfigSnapshot {snapshot : Snapshot} (hsnapshot : snapshot.raw = f.config)
    (apiKey : Bool) :
    Ensures (consumeConfigSnapshot floats limit floatTexts snapshot selection apiKey) f
      (Settles floatTexts selection f.config) := by
  refine ensures_checkOwned_bind (settles_error rfl) ?_
  dsimp only
  rcases selection with _ | given
  · dsimp only
    split
    · exact .pure (settles_refused rfl)
    · exact .pure (settles_refused rfl)
  dsimp only
  split
  · exact .pure (settles_refused rfl)
  rename_i selected hselected
  split
  · exact .pure (settles_refused rfl)
  rw [hsnapshot]
  split
  · exact .throw (settles_error rfl)
  · exact .pure (settles_refused rfl)
  rename_i result hresult
  refine .bind ((ensures_readinessWarnings result.2 apiKey).conseq ?_)
  rintro x f' ⟨rfl, warnings, rfl⟩
  exact ensures_checkOwned_bind (settles_error rfl)
    (ensures_writeConfig floats limit warnings (isMerged_of_mergedConfig floats limit hselected hresult))

/-- **The body** settles what it answers. -/
theorem ensures_leaseBody (apiKey : Bool) :
    Ensures (leaseBody floats limit floatTexts selection apiKey) f
      (Settles floatTexts selection f.config) := by
  refine .bind (.outcome ((ensures_snapshotFromOwned floats limit).conseq fun x f' hx => ?_))
  obtain ⟨rfl, hsnapshot⟩ := hx
  rcases x with e | snapshot
  · rcases e with _ | _ | _ | _
    · exact .pure (settles_refused rfl)
    · exact .pure (settles_refused rfl)
    · exact .throw (settles_error rfl)
    · exact .throw (settles_error rfl)
  · exact ensures_consumeConfigSnapshot floats limit (hsnapshot snapshot rfl) apiKey

end Answers

end Body

end ConfigApply

end YasbLimitora
