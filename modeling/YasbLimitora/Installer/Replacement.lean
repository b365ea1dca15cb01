import Mathlib
import YasbLimitora.Installer.Evacuation

/-!
# The replacement of a prior installation

Every rename, deletion and program that setup runs may fail, and a deletion that fails may have
deleted a part. Its end is *safe* (`YasbLimitora.Installer.Safe`) if the prior installation is there, or
the new one, or the whole of the prior payload with the registration that was exported, to recover it
by hand; and if no part of a prior payload is advertised as an installation.

The rollback comes to one of two ends (`YasbLimitora.Installer.restore_cases`): the prior payload is put
back and advertised, where no fault stops it (`YasbLimitora.Installer.GoesThrough`), or what there is of
it is kept, in one of two directories (`YasbLimitora.Installer.Keeps`). Where the prior payload is whole
both are safe. It is not where the deletion at `ssPostInstall` fails with a part deleted. What is then
left of it recovers nothing, and setup is safe only if the new release stays, against the rollback that
follows (`YasbLimitora.Installer.restore_new_iff`): its uninstaller has left it alone, or was not run,
and the rollback is stopped before it is moved out of the way, or puts it back
(`YasbLimitora.Installer.NewStays`). So a run of setup is safe but for one kind
(`YasbLimitora.Installer.run_safe_iff`).
-/

namespace YasbLimitora

namespace Installer

/-! ### What is safe -/

/-- The values of a registration are there. -/
def Setup.Carries (σ : Setup) (key : Key) : Prop :=
  ∀ name value, key name = some value → σ.registry name = some value

/-- The exported registration and the whole of the prior payload are kept. -/
def Setup.Recoverable (appDir : Text) (key : Key) (σ : Setup) : Prop :=
  σ.readvertised = false ∧ σ.files (snapshotPath appDir) = some key ∧
    ∃ path ∈ [appDir, oldDir appDir], σ.dirs path = some ⟨.prior, true⟩

/-- **A safe end**: the prior installation, or the new one, or what it takes to recover the
prior one. No part of a prior payload is advertised. -/
structure Safe (appDir : Text) (prior : Key) (s : Session) (σ : Setup) : Prop where
  safe : (σ.dirs appDir = some ⟨.prior, true⟩ ∧ σ.Carries prior) ∨
    (∃ values, s.host = .completed values ∧ σ.dirs appDir = some ⟨.new, true⟩ ∧ σ.Carries values) ∨
    σ.Recoverable appDir prior
  neverPartial : ¬(σ.dirs appDir = some ⟨.prior, false⟩ ∧ σ.readvertised = true)

/-- The exported registration is kept, with what there is of the prior payload. -/
def Setup.Retains (appDir : Text) (key : Key) (σ : Setup) : Prop :=
  σ.readvertised = false ∧ σ.files (snapshotPath appDir) = some key ∧
    ∃ path ∈ [appDir, oldDir appDir], ∃ whole, σ.dirs path = some ⟨.prior, whole⟩

/-- **The end of a transaction**: the prior installation, or the new one, or the evidence of the prior
one, which is not advertised. No part of a prior payload is put back and advertised. -/
structure Transacted (appDir : Text) (prior : Key) (s : Session) (σ : Setup) : Prop where
  ends : (σ.dirs appDir = some ⟨.prior, true⟩ ∧ σ.Carries prior) ∨
    (∃ values, s.host = .completed values ∧ σ.dirs appDir = some ⟨.new, true⟩ ∧ σ.Carries values) ∨
    σ.Retains appDir prior
  neverPartial : ¬(σ.dirs appDir = some ⟨.prior, false⟩ ∧ σ.readvertised = true)

/-! ### The rollback -/

section Rollback

variable {appDir : Text} {key : Key} {whole : Bool} {σ : Setup} {f : RollbackFaults}

/-- The new uninstaller is there, and can be run. -/
def Runs (appDir : Text) (f : RollbackFaults) (registry : Key) : Prop :=
  (∃ uninstallString, registry "UninstallString" = some uninstallString ∧
    hasOwnedNewUninstaller f.fileExists appDir uninstallString = true) ∧ f.uninstaller.ran = true

def RunsCleanly (appDir : Text) (f : RollbackFaults) (registry : Key) : Prop :=
  Runs appDir f registry ∧ f.uninstaller.code = 0

/-- **No fault stops the rollback**, of a new payload that is there or not. -/
structure GoesThrough (appDir : Text) (f : RollbackFaults) (registry : Key) (present : Bool) : Prop where
  gone : RunsCleanly appDir f registry → present = true →
    ∃ n ≤ G1UninstallCleanupBudgetMs / G1UninstallCleanupPollMs, f.left n = none
  quarantined : present = true → ¬RunsCleanly appDir f registry → ¬(Runs appDir f registry ∧ f.left 0 = none) →
    f.quarantines = true ∧ f.discards = .done
  restored : f.restores = true
  imported : f.imports.succeeds = true

/-- The new release is uninstalled as it is, and the rollback does not take it away for good: it is not
moved out of the way, or put back. -/
structure NewStays (appDir : Text) (f : RollbackFaults) (registry values : Key) : Prop where
  left : Runs appDir f registry → f.left 0 = some true ∧ ∀ name value, values name = some value → f.leftKey name = some value
  awaited : RunsCleanly appDir f registry →
    ∀ n ≤ G1UninstallCleanupBudgetMs / G1UninstallCleanupPollMs, f.left n = some true
  blocked : ¬RunsCleanly appDir f registry → f.quarantines = false ∨ f.restores = false ∧ f.putsBack = true

/-- What there is of the prior payload is kept, with its registration. -/
structure Keeps (appDir : Text) (key : Key) (whole : Bool) (σ : Setup) : Prop where
  notReadvertised : σ.readvertised = false
  file : σ.files (snapshotPath appDir) = some key
  prior : σ.dirs appDir = some ⟨.prior, whole⟩ ∧ σ.dirs (oldDir appDir) = none ∨
    σ.dirs (oldDir appDir) = some ⟨.prior, whole⟩ ∧ ∀ tree, σ.dirs appDir = some tree → tree.release = .new

theorem Keeps.recoverable (h : Keeps appDir key true σ) : σ.Recoverable appDir key := by
  refine ⟨h.notReadvertised, h.file, ?_⟩
  rcases h.prior with ⟨happ, -⟩ | ⟨hold, -⟩
  · exact ⟨appDir, List.mem_cons_self, happ⟩
  · exact ⟨oldDir appDir, by simp, hold⟩

/-- Of a part of a prior payload nothing is recovered. -/
theorem Keeps.not_prior (h : Keeps appDir key false σ) :
    ∀ path ∈ [appDir, oldDir appDir], σ.dirs path ≠ some ⟨.prior, true⟩ := by
  rw [List.forall_mem_cons, List.forall_mem_singleton]
  rcases h.prior with ⟨happ, hold⟩ | ⟨hold, happ⟩
  · rw [happ, hold]
    exact ⟨by decide, nofun⟩
  · rw [hold]
    exact ⟨fun hprior => (nomatch happ _ hprior), by decide⟩

theorem Evacuated.atApp (h : Evacuated appDir key whole σ) (tree : Option Tree) (registry : Key)
    (htree : ∀ t, tree = some t → t.release = .new) :
    Evacuated appDir key whole { σ.setDir appDir tree with registry := registry } where
  old := (Setup.dirs_setDir_of_ne oldDir_ne).trans h.old
  app t ht := htree t (Setup.dirs_setDir_self.symm.trans ht)
  failed := (Setup.dirs_setDir_of_ne failedDir_ne).trans h.failed
  evacuated := h.evacuated
  snapshot := h.snapshot
  file := h.file
  uninstallString := h.uninstallString
  notOwned := h.notOwned
  notReadvertised := h.notReadvertised

theorem Evacuated.keeps (h : Evacuated appDir key whole σ) : Keeps appDir key whole σ :=
  ⟨h.notReadvertised, h.file, .inr ⟨h.old, h.app⟩⟩

/-- What is left of a payload that is uninstalled is of the same release. -/
theorem Evacuated.leave (h : Evacuated appDir key whole σ) (left : Option Bool) (registry : Key) :
    Evacuated appDir key whole { σ.leave appDir left with registry := registry } := by
  refine h.atApp _ registry fun t ht => ?_
  obtain ⟨tree, htree, hleft⟩ := Option.bind_eq_some_iff.1 ht
  obtain ⟨_, _, rfl⟩ := Option.map_eq_some_iff.1 hleft
  exact h.app tree htree

theorem dirExists_leave (left : Option Bool) :
    (σ.leave appDir left).dirExists appDir = true ↔ σ.dirExists appDir = true ∧ left ≠ none := by
  rw [Setup.dirExists, Setup.leave, Setup.dirs_setDir_self, Setup.dirExists]
  rcases σ.dirs appDir with _ | t
  · exact iff_of_false Bool.false_ne_true fun h => Bool.false_ne_true h.1
  · rw [Option.bind_some, Option.isSome_map, Option.isSome_iff_ne_none]
    exact (and_iff_right rfl).symm

/-- The whole of a new payload is left if it was there and nothing of it was deleted. -/
theorem dirs_leave_new (left : Option Bool) :
    (σ.leave appDir left).dirs appDir = some ⟨.new, true⟩ ↔ σ.dirs appDir = some ⟨.new, true⟩ ∧ left = some true := by
  rw [Setup.leave, Setup.dirs_setDir_self]
  rcases σ.dirs appDir with _ | ⟨release, whole⟩ <;> rcases left with _ | whole' <;> simp [and_assoc]

theorem uninstallNew_of_runs (h : Runs appDir f σ.registry) :
    σ.uninstallNew appDir f = (f.uninstaller.code == 0, { σ.leave appDir (f.left 0) with registry := f.leftKey }) := by
  obtain ⟨⟨newUninstallString, hstring, howned⟩, hran⟩ := h
  unfold Setup.uninstallNew
  simp only [hstring, howned, hran, Bool.and_self, if_true]

theorem uninstallNew_of_not_runs (h : ¬Runs appDir f σ.registry) : σ.uninstallNew appDir f = (false, σ) := by
  unfold Setup.uninstallNew
  split
  · rfl
  · rename_i newUninstallString hstring
    refine if_neg fun hruns => h ?_
    obtain ⟨howned, hran⟩ := Bool.and_eq_true_iff.1 hruns
    exact ⟨⟨_, hstring, howned⟩, hran⟩

theorem uninstallNew_cases (h : Evacuated appDir key whole σ) : ∃ clean σ', σ.uninstallNew appDir f = (clean, σ') ∧
    Evacuated appDir key whole σ' ∧ (clean = true ↔ RunsCleanly appDir f σ.registry) ∧
    (σ'.dirExists appDir = true ↔ σ.dirExists appDir = true ∧ ¬(Runs appDir f σ.registry ∧ f.left 0 = none)) := by
  by_cases hruns : Runs appDir f σ.registry
  · refine ⟨_, _, uninstallNew_of_runs hruns, h.leave _ _, ?_, ?_⟩
    · rw [beq_iff_eq]
      exact (and_iff_right hruns).symm
    · refine (dirExists_leave (f.left 0)).trans ?_
      exact and_congr_right fun _ => not_congr (and_iff_right hruns).symm
  · exact ⟨false, σ, uninstallNew_of_not_runs hruns, h, iff_of_false Bool.false_ne_true fun hc => hruns hc.1,
      (and_iff_left fun hleft => hruns hleft.1).symm⟩

/-- What the wait finds at its end, of a payload that something is true of: it is so at each poll. -/
theorem awaitCleanup_iff {P : Option Tree → Prop} {Q : Option Bool → Prop} (hnone : ¬P none)
    (hleave : ∀ (σ : Setup) left, P ((σ.leave appDir left).dirs appDir) ↔ P (σ.dirs appDir) ∧ Q left) (rounds n : ℕ) :
    P ((Setup.awaitCleanup appDir f rounds n σ).dirs appDir) ↔
      P (σ.dirs appDir) ∧ ∀ m, n < m → m ≤ n + rounds → Q (f.left m) := by
  induction rounds generalizing n σ with
  | zero => exact (and_iff_left fun m hn hm => absurd hm (Nat.not_le.2 hn)).symm
  | succ rounds ih =>
    rw [Setup.awaitCleanup]
    by_cases hthere : σ.dirExists appDir = true
    · rw [if_pos hthere, ih, hleave, and_assoc]
      refine and_congr_right fun _ => ⟨fun ⟨hfirst, hrest⟩ m hn hm => ?_, fun hall => ⟨?_, fun m hn hm => ?_⟩⟩
      · rcases Nat.eq_or_lt_of_le (Nat.succ_le_of_lt hn) with rfl | hlt
        · exact hfirst
        · exact hrest m hlt (by omega)
      · exact hall (n + 1) (Nat.lt_succ_self n) (by omega)
      · exact hall m (by omega) (by omega)
    · -- there is nothing to wait for
      have hgone : ¬P (σ.dirs appDir) := by
        rw [Setup.dirExists, Bool.not_eq_true, Option.isSome_eq_false_iff, Option.isNone_iff_eq_none] at hthere
        rwa [hthere]
      rw [if_neg hthere]
      exact iff_of_false hgone fun hc => hgone hc.1

/-- The wait is for the payload alone. -/
theorem awaitCleanup_keeps (h : Evacuated appDir key whole σ) (rounds n : ℕ) :
    Evacuated appDir key whole (Setup.awaitCleanup appDir f rounds n σ) ∧
      (Setup.awaitCleanup appDir f rounds n σ).registry = σ.registry := by
  induction rounds generalizing n σ with
  | zero => exact ⟨h, rfl⟩
  | succ rounds ih =>
    rw [Setup.awaitCleanup]
    split
    · have hleft : Evacuated appDir key whole (σ.leave appDir (f.left (n + 1))) := h.leave _ σ.registry
      exact ih hleft (n + 1)
    · exact ⟨h, rfl⟩

theorem dirExists_awaitCleanup (rounds n : ℕ) : (Setup.awaitCleanup appDir f rounds n σ).dirExists appDir = true ↔
    σ.dirExists appDir = true ∧ ∀ m, n < m → m ≤ n + rounds → f.left m ≠ none :=
  awaitCleanup_iff (P := fun t => t.isSome = true) Bool.false_ne_true (fun _ left => dirExists_leave left) rounds n

theorem dirs_awaitCleanup_new (rounds n : ℕ) :
    (Setup.awaitCleanup appDir f rounds n σ).dirs appDir = some ⟨.new, true⟩ ↔
      σ.dirs appDir = some ⟨.new, true⟩ ∧ ∀ m, n < m → m ≤ n + rounds → f.left m = some true :=
  awaitCleanup_iff (P := fun t => t = some ⟨.new, true⟩) nofun (fun _ left => dirs_leave_new left) rounds n

/-- Nothing is left of the new payload where the prior one belongs; it may be in quarantine. -/
structure Aside (appDir : Text) (key : Key) (whole owned : Bool) (σ : Setup) : Prop where
  old : σ.dirs (oldDir appDir) = some ⟨.prior, whole⟩
  app : σ.dirExists appDir = false
  failed : σ.dirExists (failedDir appDir) = owned
  quarantined : ∀ tree, σ.dirs (failedDir appDir) = some tree → tree.release = .new
  evacuated : σ.evacuatedOldDir = oldDir appDir
  snapshot : σ.priorRegistrySnapshot = snapshotPath appDir
  file : σ.files (snapshotPath appDir) = some key
  uninstallString : σ.priorUninstallString ≠ []
  owned : σ.failedQuarantineOwned = owned
  notReadvertised : σ.readvertised = false

/-- An end that is put back and advertised. -/
structure Advertised (appDir : Text) (key : Key) (whole : Bool) (σ : Setup) : Prop where
  payload : σ.dirs appDir = some ⟨.prior, whole⟩
  carries : σ.Carries key
  readvertised : σ.readvertised = true

theorem readvertise_cases (hpayload : σ.dirs appDir = some ⟨.prior, whole⟩) (hold : σ.dirs (oldDir appDir) = none)
    (hfile : σ.files (snapshotPath appDir) = some key) (hsnapshot : σ.priorRegistrySnapshot = snapshotPath appDir)
    (huninstall : σ.priorUninstallString ≠ []) (hnot : σ.readvertised = false) :
    (f.imports.succeeds = true ∧ Advertised appDir key whole (σ.readvertise f)) ∨
      (¬f.imports.succeeds = true ∧ Keeps appDir key whole (σ.readvertise f)) := by
  have hboth : σ.priorUninstallString ≠ [] ∧ σ.priorRegistrySnapshot ≠ [] :=
    ⟨huninstall, hsnapshot ▸ snapshotPath_ne_nil⟩
  unfold Setup.readvertise
  rw [if_pos hboth]
  by_cases himports : f.imports.succeeds = true
  · rw [if_pos himports]
    refine Or.inl ⟨himports, ?_, fun name value hvalue => ?_, rfl⟩
    · exact (congrFun (Setup.dirs_deleteFile ..) appDir).trans hpayload
    · -- what was exported comes before what was there
      change (Option.orElse _ _) = _
      rw [hsnapshot, hfile, Option.bind_some, hvalue]
      rfl
  · rw [if_neg himports]
    exact Or.inr ⟨himports, hnot, hfile, .inl ⟨hpayload, hold⟩⟩

variable {owned : Bool}

theorem Aside.app_none (h : Aside appDir key whole owned σ) : σ.dirs appDir = none :=
  Option.isNone_iff_eq_none.1 (Option.isSome_eq_false_iff.1 h.app)

theorem Aside.keeps (h : Aside appDir key whole owned σ) : Keeps appDir key whole σ :=
  ⟨h.notReadvertised, h.file, .inr ⟨h.old, fun _ ht => nomatch h.app_none.symm.trans ht⟩⟩

theorem restorePayload_cases (h : Aside appDir key whole owned σ) :
    (((owned = true → f.discards = .done) ∧ f.restores = true ∧ f.imports.succeeds = true) ∧
      Advertised appDir key whole (restorePayload appDir f σ)) ∨
    (¬((owned = true → f.discards = .done) ∧ f.restores = true ∧ f.imports.succeeds = true) ∧
      Keeps appDir key whole (restorePayload appDir f σ)) := by
  have hold : σ.dirExists (oldDir appDir) = true := congrArg Option.isSome h.old
  unfold restorePayload
  rw [h.evacuated, Setup.renameFile_eq f.restores hold h.app]
  cases hrestores : f.restores with
  | false =>
    refine Or.inr ⟨fun hall => absurd hall.2.1 (by decide), ?_⟩
    simp only [Bool.false_eq_true, if_false, Bool.not_false, if_true, h.owned, h.failed, Bool.and_self]
    cases owned with
    | false => exact h.keeps
    | true =>
      rw [if_pos rfl, Setup.renameFile_eq f.putsBack h.failed h.app]
      cases f.putsBack with
      | false => exact h.keeps
      | true =>
        refine ⟨h.notReadvertised, h.file, .inr ⟨?_, fun tree htree => h.quarantined tree ?_⟩⟩
        · exact (Setup.dirs_moved_of_ne oldDir_ne_failedDir oldDir_ne).trans h.old
        · exact (Setup.dirs_moved_target failedDir_ne.symm).symm.trans htree
  | true =>
  rw [if_pos rfl]
  have hpayload : (σ.moved (oldDir appDir) appDir).dirs appDir = some ⟨.prior, whole⟩ :=
    (Setup.dirs_moved_target oldDir_ne.symm).trans h.old
  have hnone : (σ.moved (oldDir appDir) appDir).dirs (oldDir appDir) = none := Setup.dirs_setDir_self
  have hfailed : (σ.moved (oldDir appDir) appDir).dirExists (failedDir appDir) = owned :=
    (congrArg Option.isSome (Setup.dirs_moved_of_ne oldDir_ne_failedDir.symm failedDir_ne)).trans h.failed
  have howned : (σ.moved (oldDir appDir) appDir).failedQuarantineOwned = owned := h.owned
  simp only [Bool.not_true, Bool.false_eq_true, if_false, Setup.deleteQuarantine, hfailed, howned, Bool.and_self]
  cases owned with
  | false =>
    rcases readvertise_cases (f := f)
      (σ := { σ.moved (oldDir appDir) appDir with failedQuarantineOwned := false, evacuatedOldDir := [] })
      hpayload hnone h.file h.snapshot h.uninstallString h.notReadvertised with ⟨himports, had⟩ | ⟨himports, hrec⟩
    · exact Or.inl ⟨⟨nofun, trivial, himports⟩, had⟩
    · exact Or.inr ⟨fun hall => himports hall.2.2, hrec⟩
  | true =>
  cases hdiscards : f.discards with
  | failed touched =>
    refine Or.inr ⟨fun hall => Deletion.noConfusion (hall.1 rfl), h.notReadvertised, h.file, .inl ⟨?_, ?_⟩⟩
    · exact (Setup.dirs_setDir_of_ne failedDir_ne.symm).trans hpayload
    · exact (Setup.dirs_setDir_of_ne oldDir_ne_failedDir).trans hnone
  | done =>
    have hdeleted : ((σ.moved (oldDir appDir) appDir).setDir (failedDir appDir) none).dirs appDir
        = some ⟨.prior, whole⟩ := (Setup.dirs_setDir_of_ne failedDir_ne.symm).trans hpayload
    rcases readvertise_cases (f := f)
      (σ := { (σ.moved (oldDir appDir) appDir).setDir (failedDir appDir) none with
        failedQuarantineOwned := false, evacuatedOldDir := [] })
      hdeleted ((Setup.dirs_setDir_of_ne oldDir_ne_failedDir).trans hnone) h.file h.snapshot h.uninstallString h.notReadvertised with ⟨himports, had⟩ | ⟨himports, hrec⟩
    · exact Or.inl ⟨⟨fun _ => rfl, trivial, himports⟩, had⟩
    · exact Or.inr ⟨fun hall => himports hall.2.2, hrec⟩

/-- Where nothing of the new payload is left, it is not in quarantine either. -/
theorem Evacuated.aside (h : Evacuated appDir key whole σ) (happ : σ.dirExists appDir = false) :
    Aside appDir key whole false σ :=
  ⟨h.old, happ, congrArg Option.isSome h.failed, fun _ ht => (nomatch h.failed.symm.trans ht), h.evacuated, h.snapshot,
    h.file, h.uninstallString, h.notOwned, h.notReadvertised⟩

/-- The new payload is moved out of the way. -/
theorem Evacuated.quarantine (h : Evacuated appDir key whole σ) (happ : σ.dirExists appDir = true) :
    Aside appDir key whole true { σ.moved appDir (failedDir appDir) with failedQuarantineOwned := true } where
  old := (Setup.dirs_moved_of_ne oldDir_ne oldDir_ne_failedDir).trans h.old
  app := congrArg Option.isSome Setup.dirs_setDir_self
  failed := (congrArg Option.isSome (Setup.dirs_moved_target failedDir_ne)).trans happ
  quarantined tree htree := h.app tree ((Setup.dirs_moved_target failedDir_ne).symm.trans htree)
  evacuated := h.evacuated
  snapshot := h.snapshot
  file := h.file
  uninstallString := h.uninstallString
  owned := rfl
  notReadvertised := h.notReadvertised

theorem putPriorBack_cases (h : Evacuated appDir key whole σ) :
    (((σ.dirExists appDir = true → f.quarantines = true ∧ f.discards = .done) ∧ f.restores = true ∧
        f.imports.succeeds = true) ∧ Advertised appDir key whole (putPriorBack appDir f σ)) ∨
    (¬((σ.dirExists appDir = true → f.quarantines = true ∧ f.discards = .done) ∧ f.restores = true ∧
        f.imports.succeeds = true) ∧ Keeps appDir key whole (putPriorBack appDir f σ)) := by
  have hfailed : σ.dirExists (failedDir appDir) = false := congrArg Option.isSome h.failed
  unfold putPriorBack
  simp only [Setup.deleteQuarantine, h.notOwned, Bool.false_and, Bool.false_eq_true, if_false, Bool.not_true,
    Setup.quarantineNew]
  cases happ : σ.dirExists appDir with
  | false =>
    rcases restorePayload_cases (f := f) (h.aside happ) with ⟨hall, had⟩ | ⟨hnot, hrec⟩
    · exact Or.inl ⟨⟨nofun, hall.2⟩, had⟩
    · exact Or.inr ⟨fun hall => hnot ⟨nofun, hall.2⟩, hrec⟩
  | true =>
  rw [if_pos rfl, Setup.renameFile_eq f.quarantines happ hfailed]
  cases hquarantines : f.quarantines with
  | false => exact Or.inr ⟨fun hall => absurd (hall.1 rfl).1 (by decide), h.keeps⟩
  | true =>
    rcases restorePayload_cases (f := f) (h.quarantine happ) with ⟨hall, had⟩ | ⟨hnot, hrec⟩
    · exact Or.inl ⟨⟨fun _ => ⟨rfl, hall.1 rfl⟩, hall.2⟩, had⟩
    · exact Or.inr ⟨fun hall => hnot ⟨fun _ => (hall.1 rfl).2, hall.2⟩, hrec⟩

/-- **What the rollback comes to**: it advertises what there is of the prior payload if no fault
stops it, and keeps all that it takes to recover it if one does. -/
theorem restore_cases (h : Evacuated appDir key whole σ) :
    (GoesThrough appDir f σ.registry (σ.dirExists appDir) ∧
      Advertised appDir key whole (restoreEvacuatedPriorInstall appDir f σ)) ∨
    (¬GoesThrough appDir f σ.registry (σ.dirExists appDir) ∧
      Keeps appDir key whole (restoreEvacuatedPriorInstall appDir f σ)) := by
  obtain ⟨clean, σ', hstep, hevacuated, hclean, hexists⟩ := uninstallNew_cases (f := f) h
  unfold restoreEvacuatedPriorInstall
  rw [hstep]
  cases clean with
  | false =>
    have hnot : ¬RunsCleanly appDir f σ.registry := fun hc => absurd (hclean.2 hc) Bool.false_ne_true
    rcases putPriorBack_cases (f := f) hevacuated with ⟨⟨hquarantined, hrest⟩, had⟩ | ⟨hstops, hrec⟩
    · exact Or.inl ⟨⟨fun hc => absurd hc hnot, fun hthere _ hstays => hquarantined (hexists.2 ⟨hthere, hstays⟩),
        hrest.1, hrest.2⟩, had⟩
    · refine Or.inr ⟨fun hgoes => hstops ⟨fun hthere => ?_, hgoes.restored, hgoes.imported⟩, hrec⟩
      exact hgoes.quarantined (hexists.1 hthere).1 hnot (hexists.1 hthere).2
  | true =>
    have hc : RunsCleanly appDir f σ.registry := hclean.1 rfl
    obtain ⟨hawaited, -⟩ := awaitCleanup_keeps (f := f) hevacuated
      (G1UninstallCleanupBudgetMs / G1UninstallCleanupPollMs) 0
    have hthere : (Setup.awaitCleanup appDir f (G1UninstallCleanupBudgetMs / G1UninstallCleanupPollMs) 0 σ').dirExists
        appDir = true ↔ _ := dirExists_awaitCleanup (G1UninstallCleanupBudgetMs / G1UninstallCleanupPollMs) 0
    -- the payload is there at the end if it is there at each poll
    have hgone : (Setup.awaitCleanup appDir f (G1UninstallCleanupBudgetMs / G1UninstallCleanupPollMs) 0 σ').dirExists
        appDir = false ↔ (σ.dirExists appDir = true →
          ∃ n ≤ G1UninstallCleanupBudgetMs / G1UninstallCleanupPollMs, f.left n = none) := by
      rw [← Bool.not_eq_true, hthere, hexists]
      constructor
      · intro hnot happ
        by_contra hnone
        push Not at hnone
        exact hnot ⟨⟨happ, fun hfirst => hnone 0 (Nat.zero_le _) hfirst.2⟩, fun m _ hm => hnone m (by omega)⟩
      · rintro hsome ⟨⟨happ, hfirst⟩, hrest⟩
        obtain ⟨n, hn, hleft⟩ := hsome happ
        rcases Nat.eq_zero_or_pos n with rfl | hpos
        · exact hfirst ⟨hc.1, hleft⟩
        · exact hrest n hpos (by omega) hleft
    simp only [if_true, Bool.true_and]
    cases hend : (Setup.awaitCleanup appDir f (G1UninstallCleanupBudgetMs / G1UninstallCleanupPollMs) 0 σ').dirExists
        appDir with
    | true =>
      rw [if_pos rfl]
      exact Or.inr ⟨fun hgoes => absurd (hgone.2 (hgoes.gone hc)) (by rw [hend]; decide), hawaited.keeps⟩
    | false =>
      rw [if_neg Bool.false_ne_true]
      rcases putPriorBack_cases (f := f) hawaited with ⟨⟨_, hrest⟩, had⟩ | ⟨hstops, hrec⟩
      · exact Or.inl ⟨⟨fun _ => hgone.1 hend, fun _ hnot => absurd hc hnot, hrest.1, hrest.2⟩, had⟩
      · refine Or.inr ⟨fun hgoes => hstops ⟨fun hthere => ?_, hgoes.restored, hgoes.imported⟩, hrec⟩
        exact absurd (hthere.symm.trans hend) (by decide)

/-! ### The new payload -/

theorem dirs_readvertise : (σ.readvertise f).dirs = σ.dirs := by
  unfold Setup.readvertise
  split_ifs
  · exact Setup.dirs_deleteFile ..
  · rfl
  · rfl

theorem dirs_deleteQuarantine (d : Deletion) {path : Text} (h : path ≠ failedDir appDir) :
    (σ.deleteQuarantine appDir d).2.dirs path = σ.dirs path := by
  unfold Setup.deleteQuarantine
  split
  · cases d with
    | done => exact Setup.dirs_setDir_of_ne h
    | failed touched => exact Setup.dirs_setDir_of_ne h
  · rfl

/-- A payload that is put back is the prior one, whatever comes of the rest. -/
theorem restorePayload_prior (h : Aside appDir key whole owned σ) (hrestores : f.restores = true) :
    (restorePayload appDir f σ).dirs appDir = some ⟨.prior, whole⟩ := by
  have hpayload : (σ.moved (oldDir appDir) appDir).dirs appDir = some ⟨.prior, whole⟩ :=
    (Setup.dirs_moved_target oldDir_ne.symm).trans h.old
  unfold restorePayload
  rw [h.evacuated, Setup.renameFile_eq f.restores (congrArg Option.isSome h.old) h.app, if_pos hrestores]
  have hkept := (dirs_deleteQuarantine f.discards failedDir_ne.symm).trans hpayload
  rcases hdeleted : (σ.moved (oldDir appDir) appDir).deleteQuarantine appDir f.discards with ⟨discarded, σ'⟩
  rw [hdeleted] at hkept
  simp only [Bool.not_true, Bool.false_eq_true, if_false, hdeleted]
  split
  · exact hkept
  · exact (congrFun dirs_readvertise appDir).trans hkept

/-- A payload that is not put back leaves room for the new one, which may be put back from
quarantine. -/
theorem restorePayload_stopped (h : Aside appDir key whole owned σ) (hrestores : f.restores = false) :
    (restorePayload appDir f σ).registry = σ.registry ∧ (restorePayload appDir f σ).dirs appDir =
      if f.putsBack then σ.dirs (failedDir appDir) else none := by
  unfold restorePayload
  rw [h.evacuated, Setup.renameFile_eq f.restores (congrArg Option.isSome h.old) h.app, if_neg (by simp [hrestores])]
  simp only [Bool.not_false, if_true, h.owned, h.failed, Bool.and_self]
  cases owned with
  | false =>
    have hnone : σ.dirs (failedDir appDir) = none := by
      exact Option.isNone_iff_eq_none.1 (Option.isSome_eq_false_iff.1 h.failed)
    rw [if_neg Bool.false_ne_true, hnone, ite_self]
    exact ⟨rfl, h.app_none⟩
  | true =>
    rw [if_pos rfl, Setup.renameFile_eq f.putsBack h.failed h.app]
    cases f.putsBack with
    | false => exact ⟨rfl, h.app_none⟩
    | true => exact ⟨rfl, Setup.dirs_moved_target failedDir_ne.symm⟩

/-- **The new payload stays** where it cannot be moved out of the way, or is put back. -/
theorem putPriorBack_new (h : Evacuated appDir key whole σ) :
    ((putPriorBack appDir f σ).dirs appDir = some ⟨.new, true⟩ ↔ σ.dirs appDir = some ⟨.new, true⟩ ∧
      (f.quarantines = false ∨ f.restores = false ∧ f.putsBack = true)) ∧
    ((putPriorBack appDir f σ).dirs appDir = some ⟨.new, true⟩ → (putPriorBack appDir f σ).registry = σ.registry) := by
  have hfailed : σ.dirExists (failedDir appDir) = false := congrArg Option.isSome h.failed
  -- what comes of a payload that is out of the way
  have hrestored : ∀ {σ' : Setup} {owned}, Aside appDir key whole owned σ' → σ'.registry = σ.registry →
      ((restorePayload appDir f σ').dirs appDir = some ⟨.new, true⟩ ↔
        σ'.dirs (failedDir appDir) = some ⟨.new, true⟩ ∧ f.restores = false ∧ f.putsBack = true) ∧
      ((restorePayload appDir f σ').dirs appDir = some ⟨.new, true⟩ →
        (restorePayload appDir f σ').registry = σ.registry) := by
    intro σ' owned haside hregistry
    cases hrestores : f.restores with
    | true =>
      rw [restorePayload_prior haside hrestores]
      exact ⟨iff_of_false nofun fun hall => (nomatch hall.2.1), nofun⟩
    | false =>
      obtain ⟨hkept, hdirs⟩ := restorePayload_stopped haside hrestores
      rw [hdirs, hkept]
      cases f.putsBack with
      | false => exact ⟨iff_of_false nofun fun hall => (nomatch hall.2.2), fun _ => hregistry⟩
      | true => exact ⟨(and_iff_left ⟨rfl, rfl⟩).symm, fun _ => hregistry⟩
  unfold putPriorBack
  simp only [Setup.deleteQuarantine, h.notOwned, Bool.false_and, Bool.false_eq_true, if_false, Bool.not_true,
    Setup.quarantineNew]
  cases happ : σ.dirExists appDir with
  | false =>
    obtain ⟨hiff, hregistry⟩ := hrestored (h.aside happ) rfl
    have hnone : σ.dirs appDir = none := Option.isNone_iff_eq_none.1 (Option.isSome_eq_false_iff.1 happ)
    refine ⟨hiff.trans (iff_of_false ?_ ?_), hregistry⟩
    · rw [h.failed]
      exact fun hall => nomatch hall.1
    · rw [hnone]
      exact fun hall => nomatch hall.1
  | true =>
    rw [if_pos rfl, Setup.renameFile_eq f.quarantines happ hfailed]
    cases hquarantines : f.quarantines with
    | false => exact ⟨(and_iff_left (.inl rfl)).symm, fun _ => rfl⟩
    | true =>
      obtain ⟨hiff, hregistry⟩ := hrestored (h.quarantine happ) rfl
      refine ⟨hiff.trans ?_, hregistry⟩
      rw [show Setup.dirs _ (failedDir appDir) = σ.dirs appDir from Setup.dirs_moved_target failedDir_ne]
      exact and_congr_right fun _ => (or_iff_right nofun).symm

/-- **The new installation is there after the rollback** if and only if it was left alone by its own
uninstaller, and not taken away for good. -/
theorem restore_new_iff (h : Evacuated appDir key whole σ) (hnew : σ.dirs appDir = some ⟨.new, true⟩) {values : Key}
    (hvalues : σ.Carries values) :
    ((restoreEvacuatedPriorInstall appDir f σ).dirs appDir = some ⟨.new, true⟩ ∧
      (restoreEvacuatedPriorInstall appDir f σ).Carries values) ↔ NewStays appDir f σ.registry values := by
  unfold restoreEvacuatedPriorInstall
  by_cases hruns : Runs appDir f σ.registry
  swap
  · -- the uninstaller is not run
    have hnot : ¬RunsCleanly appDir f σ.registry := fun hclean => hruns hclean.1
    obtain ⟨hiff, hregistry⟩ := putPriorBack_new (f := f) h
    rw [uninstallNew_of_not_runs hruns]
    simp only [Bool.false_eq_true, if_false, Bool.false_and]
    constructor
    · rintro ⟨hthere, -⟩
      exact ⟨fun hr => absurd hr hruns, fun hr => absurd hr hnot, fun _ => (hiff.1 hthere).2⟩
    · intro hstays
      have hthere := hiff.2 ⟨hnew, hstays.blocked hnot⟩
      refine ⟨hthere, fun name value hvalue => ?_⟩
      rw [hregistry hthere]
      exact hvalues name value hvalue
  have hleft : Evacuated appDir key whole { σ.leave appDir (f.left 0) with registry := f.leftKey } := h.leave _ _
  have hleave : (σ.leave appDir (f.left 0)).dirs appDir = some ⟨.new, true⟩ ↔ _ := dirs_leave_new (f.left 0)
  rw [uninstallNew_of_runs hruns]
  by_cases hcode : f.uninstaller.code = 0
  · have hclean : RunsCleanly appDir f σ.registry := ⟨hruns, hcode⟩
    obtain ⟨hawaited, hregistry⟩ := awaitCleanup_keeps (f := f) hleft
      (G1UninstallCleanupBudgetMs / G1UninstallCleanupPollMs) 0
    have hdirs : (Setup.awaitCleanup appDir f (G1UninstallCleanupBudgetMs / G1UninstallCleanupPollMs) 0
        { σ.leave appDir (f.left 0) with registry := f.leftKey }).dirs appDir = some ⟨.new, true⟩ ↔ _ :=
      dirs_awaitCleanup_new (G1UninstallCleanupBudgetMs / G1UninstallCleanupPollMs) 0
    generalize hend : Setup.awaitCleanup appDir f _ 0 _ = σ' at hawaited hregistry hdirs
    have hall : σ'.dirs appDir = some ⟨.new, true⟩ ↔
        ∀ n ≤ G1UninstallCleanupBudgetMs / G1UninstallCleanupPollMs, f.left n = some true := by
      refine (hdirs.trans (and_congr_left' hleave)).trans ⟨fun ⟨⟨_, hfirst⟩, hrest⟩ n hn => ?_, fun hevery => ?_⟩
      · rcases Nat.eq_zero_or_pos n with rfl | hpos
        · exact hfirst
        · exact hrest n hpos (by omega)
      · exact ⟨⟨hnew, hevery 0 (Nat.zero_le _)⟩, fun m _ hm => hevery m (by omega)⟩
    simp only [hcode, beq_self_eq_true, if_true, Bool.true_and, hend]
    by_cases hthere : σ'.dirExists appDir = true
    · -- it is still there after the wait, and the rollback is given up
      rw [if_pos hthere, hall]
      constructor
      · rintro ⟨hevery, hcarries⟩
        refine ⟨fun _ => ⟨hevery 0 (Nat.zero_le _), fun name value hvalue => ?_⟩, fun _ => hevery, fun hr => absurd hclean hr⟩
        exact (congrFun hregistry name).symm.trans (hcarries name value hvalue)
      · intro hstays
        refine ⟨hstays.awaited hclean, fun name value hvalue => ?_⟩
        exact (congrFun hregistry name).trans ((hstays.left hruns).2 name value hvalue)
    · have hgone : σ'.dirs appDir ≠ some ⟨.new, true⟩ := fun hnew => hthere (congrArg Option.isSome hnew)
      rw [if_neg hthere]
      refine iff_of_false (fun hboth => hgone ?_) fun hstays => hgone (hall.2 (hstays.awaited hclean))
      exact ((putPriorBack_new hawaited).1.1 hboth.1).1
  · -- it has failed
    have hnot : ¬RunsCleanly appDir f σ.registry := fun hclean => hcode hclean.2
    obtain ⟨hiff, hregistry⟩ := putPriorBack_new (f := f) hleft
    rw [beq_eq_false_iff_ne.2 hcode]
    simp only [Bool.false_eq_true, if_false, Bool.false_and]
    constructor
    · rintro ⟨hthere, hcarries⟩
      obtain ⟨hstays, hblocked⟩ := hiff.1 hthere
      refine ⟨fun _ => ⟨(hleave.1 hstays).2, fun name value hvalue => ?_⟩, fun hr => absurd hr hnot, fun _ => hblocked⟩
      exact (congrFun (hregistry hthere) name).symm.trans (hcarries name value hvalue)
    · intro hstays
      obtain ⟨hfirst, hkey⟩ := hstays.left hruns
      have hthere := hiff.2 ⟨hleave.2 ⟨hnew, hfirst⟩, hstays.blocked hnot⟩
      exact ⟨hthere, fun name value hvalue => (congrFun (hregistry hthere) name).trans (hkey name value hvalue)⟩

end Rollback

/-! ### Whole runs -/

section Session

variable {appDir : Text} {σ : Setup}

theorem Advertised.safe {key : Key} {s : Session} (h : Advertised appDir key true σ) : Safe appDir key s σ where
  safe := Or.inl ⟨h.payload, h.carries⟩
  neverPartial hpartial := by
    have hwhole := Option.some.inj (h.payload.symm.trans hpartial.1)
    exact absurd (congrArg Tree.whole hwhole) (by decide)

theorem Advertised.not_safe {key : Key} {s : Session} (h : Advertised appDir key false σ) : ¬Safe appDir key s σ :=
  fun hsafe => hsafe.neverPartial ⟨h.payload, h.readvertised⟩

theorem Keeps.safe {key : Key} {s : Session} (h : Keeps appDir key true σ) : Safe appDir key s σ where
  safe := Or.inr (Or.inr h.recoverable)
  neverPartial hpartial := absurd (h.notReadvertised.symm.trans hpartial.2) (by decide)

/-- Where no whole of the prior payload is left, only the new installation is safe. -/
theorem safe_iff_new {key values : Key} {s : Session} (h : Advertised appDir key false σ ∨ Keeps appDir key false σ)
    (hhost : s.host = .completed values) :
    Safe appDir key s σ ↔ σ.dirs appDir = some ⟨.new, true⟩ ∧ σ.Carries values := by
  rcases h with had | hkeeps
  · refine iff_of_false had.not_safe fun hnew => ?_
    exact nomatch had.payload.symm.trans hnew.1
  · have hnone := hkeeps.not_prior
    constructor
    · rintro ⟨⟨happ, -⟩ | ⟨values', hvalues, hnew⟩ | ⟨-, -, path, hpath, hprior⟩, -⟩
      · exact absurd happ (hnone appDir List.mem_cons_self)
      · obtain rfl := Host.completed.inj (hhost.symm.trans hvalues)
        exact hnew
      · exact absurd hprior (hnone path hpath)
    · intro hnew
      exact ⟨Or.inr (Or.inl ⟨values, hhost, hnew⟩), fun hpartial => nomatch hnew.1.symm.trans hpartial.1⟩

theorem Evacuated.deinitializeSetup {key : Key} {whole : Bool} (h : Evacuated appDir key whole σ)
    (f : RollbackFaults) : deinitializeSetup appDir f σ = restoreEvacuatedPriorInstall appDir f σ := by
  rw [Installer.deinitializeSetup, h.evacuated, if_pos oldDir_ne_nil]

/-- What `CurStepChanged` leaves of an evacuated payload. -/
theorem curStepChanged_cases {key : Key} (h : Evacuated appDir key true σ) (d : Deletion) (deletes : Bool) :
    (d = .done ∧ (curStepChanged d deletes σ).2.evacuatedOldDir = [] ∧
      (curStepChanged d deletes σ).2.dirs appDir = σ.dirs appDir ∧
      (curStepChanged d deletes σ).2.registry = σ.registry) ∨
    ∃ touched, d = .failed touched ∧ Evacuated appDir key (!touched) (curStepChanged d deletes σ).2 ∧
      (curStepChanged d deletes σ).2.dirs appDir = σ.dirs appDir ∧
      (curStepChanged d deletes σ).2.registry = σ.registry := by
  unfold curStepChanged
  rw [h.evacuated, if_pos oldDir_ne_nil]
  cases d with
  | done =>
    exact Or.inl ⟨rfl, rfl,
      (congrFun (Setup.dirs_dropSnapshot deletes) appDir).trans (Setup.dirs_setDir_of_ne oldDir_ne.symm),
      Setup.registry_dropSnapshot deletes⟩
  | failed touched =>
    refine Or.inr ⟨touched, rfl, ⟨?_, fun tree htree => h.app tree ?_, ?_, h.evacuated, h.snapshot, h.file, h.uninstallString, h.notOwned,
      h.notReadvertised⟩, Setup.dirs_setDir_of_ne oldDir_ne.symm, rfl⟩
    · refine Setup.dirs_setDir_self.trans ?_
      rw [h.old]
      rfl
    · exact (Setup.dirs_setDir_of_ne oldDir_ne.symm).symm.trans htree
    · exact (Setup.dirs_setDir_of_ne oldDir_ne_failedDir.symm).trans h.failed

/-- The uninstall key once the values of the new release are written. -/
def Setup.registered (σ : Setup) (values : Key) : Key := fun name => (values name).orElse fun _ => σ.registry name

/-- The new release is complete, and the deletion of the prior payload failed with a part deleted. -/
def PartlyDeleted (appDir : Text) (σ : Setup) (s : Session) (values : Key) : Prop :=
  (∃ f ∈ s.attempts, Admits appDir σ f) ∧ s.commit = .failed true ∧ s.host = .completed values

/-- The state in which setup is when it rolls back the new release, with a part of the prior payload. -/
structure Broken (appDir : Text) (σ : Setup) (values : Key) (σ' : Setup) : Prop where
  evacuated : Evacuated appDir σ.registry false σ'
  app : σ'.dirs appDir = some ⟨.new, true⟩
  registry : σ'.registry = σ.registered values

theorem Broken.carries {values : Key} {σ' : Setup} (h : Broken appDir σ values σ') : σ'.Carries values := by
  intro name value hvalue
  rw [h.registry, Setup.registered, hvalue, Option.orElse_some]

/-- **A run of setup** ends safe, unless a part of the prior payload was deleted; then all depends on
the rollback. -/
theorem run_cases (h : Coherent appDir σ) (s : Session) :
    ((∀ values, ¬PartlyDeleted appDir σ s values) ∧ Safe appDir σ.registry s (run appDir s σ)) ∨
      ∃ values σ', PartlyDeleted appDir σ s values ∧ Broken appDir σ values σ' ∧
        run appDir s σ = restoreEvacuatedPriorInstall appDir s.rollback σ' := by
  unfold run
  rcases prepare_cases h s.attempts h.untouched with ⟨hadmits, hgoes, hevacuated, hregistry⟩ | ⟨hnone, hstops, hu⟩
  swap
  · -- nothing was moved
    refine Or.inl ⟨fun values hpartly => ?_, ?_⟩
    · obtain ⟨⟨f, hf, ha⟩, -⟩ := hpartly
      exact hnone f hf ha
    simp only [hstops, Bool.false_eq_true, if_false, Installer.deinitializeSetup, hu.evacuated, ne_eq, not_true_eq_false]
    refine ⟨Or.inl ⟨(congrFun hu.dirs _).trans h.payload, fun name value hvalue => ?_⟩, fun hp => ?_⟩
    · rw [hu.registry]
      exact hvalue
    · exact absurd (hu.notReadvertised.symm.trans hp.2) (by decide)
  simp only [hgoes, if_true, install]
  cases hhost : s.host with
  | aborted left registry =>
    have hevacuated' : Evacuated appDir σ.registry true
        { (prepare appDir s.attempts σ).2.setDir appDir (left.map (Tree.mk .new)) with registry := registry } := by
      refine hevacuated.atApp _ registry fun t ht => ?_
      obtain ⟨_, _, rfl⟩ := Option.map_eq_some_iff.1 ht
      rfl
    refine Or.inl ⟨fun values hpartly => (nomatch hhost.symm.trans hpartly.2.2), ?_⟩
    dsimp only
    rw [hevacuated'.deinitializeSetup]
    rcases restore_cases (f := s.rollback) hevacuated' with ⟨-, had⟩ | ⟨-, hkeeps⟩
    · exact had.safe
    · exact hkeeps.safe
  | completed values =>
    have hevacuated' := hevacuated.atApp (some ⟨.new, true⟩)
      (fun name => (values name).orElse fun _ => (prepare appDir s.attempts σ).2.registry name)
      (fun t ht => Option.some.inj ht ▸ rfl)
    rcases curStepChanged_cases hevacuated' s.commit s.deletes with
      ⟨hdone, hcleared, hdirs, hkey⟩ | ⟨touched, hfailed, hkept, hdirs, hkey⟩
    · -- the new installation stays
      refine Or.inl ⟨fun values' hpartly => (nomatch hdone.symm.trans hpartly.2.1), ?_⟩
      dsimp only
      rw [Installer.deinitializeSetup, hcleared, if_neg (not_not.2 rfl)]
      have hnew := hdirs.trans Setup.dirs_setDir_self
      refine ⟨Or.inr (Or.inl ⟨values, hhost, hnew, fun name value hvalue => ?_⟩), fun hp => ?_⟩
      · refine (congrFun hkey name).trans ?_
        dsimp only
        rw [hvalue, Option.orElse_some]
      · exact absurd (congrArg Tree.release (Option.some.inj (hnew.symm.trans hp.1))) (by decide)
    · cases touched with
      | false =>
        -- nothing was deleted of the prior payload
        refine Or.inl ⟨fun values' hpartly => ?_, ?_⟩
        · exact absurd (Deletion.failed.inj (hfailed.symm.trans hpartly.2.1)) (by decide)
        dsimp only
        rw [hkept.deinitializeSetup]
        rcases restore_cases (f := s.rollback) hkept with ⟨-, had⟩ | ⟨-, hkeeps⟩
        · exact had.safe
        · exact hkeeps.safe
      | true =>
        refine Or.inr ⟨values, _, ⟨hadmits, hfailed, hhost⟩, ⟨hkept, hdirs.trans Setup.dirs_setDir_self, ?_⟩,
          hkept.deinitializeSetup s.rollback⟩
        rw [hkey]
        dsimp only
        rw [hregistry]
        rfl

/-- **What setup leaves is safe**, at the end of every run from a prior installation and however its
renames, deletions and programs come out, with one exception: the new payload was complete, the
deletion of the prior one failed with a part deleted, and the rollback that follows has not let the new
installation stay. -/
theorem run_safe_iff (h : Coherent appDir σ) (s : Session) :
    Safe appDir σ.registry s (run appDir s σ) ↔
      ¬((∃ f ∈ s.attempts, Admits appDir σ f) ∧ s.commit = .failed true ∧ ∃ values, s.host = .completed values ∧
        ¬NewStays appDir s.rollback (fun name => (values name).orElse fun _ => σ.registry name) values) := by
  rcases run_cases h s with ⟨hnot, hsafe⟩ | ⟨values, σ', ⟨hadmits, hfailed, hhost⟩, hbroken, hrun⟩
  · refine iff_of_true hsafe fun hall => ?_
    obtain ⟨hadmits, hfailed, values, hhost, -⟩ := hall
    exact hnot values ⟨hadmits, hfailed, hhost⟩
  · have hnew := restore_new_iff (f := s.rollback) hbroken.evacuated hbroken.app hbroken.carries
    have hcases := restore_cases (f := s.rollback) hbroken.evacuated
    rw [hbroken.registry] at hnew
    rw [hrun, safe_iff_new (hcases.imp And.right And.right) hhost, hnew]
    constructor
    · rintro hstays ⟨-, -, values', hvalues', hnot⟩
      obtain rfl := Host.completed.inj (hhost.symm.trans hvalues')
      exact hnot hstays
    · intro hnot
      by_contra hstays
      exact hnot ⟨hadmits, hfailed, values, hhost, hstays⟩

theorem Setup.Recoverable.retains {key : Key} (h : σ.Recoverable appDir key) : σ.Retains appDir key := by
  obtain ⟨hnot, hfile, path, hpath, hprior⟩ := h
  exact ⟨hnot, hfile, path, hpath, true, hprior⟩

theorem Safe.transacted {key : Key} {s : Session} (h : Safe appDir key s σ) : Transacted appDir key s σ where
  ends := h.safe.imp_right (Or.imp_right Setup.Recoverable.retains)
  neverPartial := h.neverPartial

/-- What is kept of a prior payload, in part or whole, is evidence. -/
theorem Keeps.transacted {key : Key} {whole : Bool} {s : Session} (h : Keeps appDir key whole σ) :
    Transacted appDir key s σ where
  ends := by
    refine Or.inr (Or.inr ⟨h.notReadvertised, h.file, ?_⟩)
    rcases h.prior with ⟨happ, -⟩ | ⟨hold, -⟩
    · exact ⟨appDir, List.mem_cons_self, whole, happ⟩
    · exact ⟨oldDir appDir, by simp, whole, hold⟩
  neverPartial hpartial := absurd (h.notReadvertised.symm.trans hpartial.2) (by decide)

/-- A prior installation in a directory. -/
def installedDir : Text := Text.ofString "C:\\y"

def installedKey : Key := fun name =>
  if name = "UninstallString" then some (Text.ofString "\"C:\\y\\unins000.exe\"")
  else if name = "InstallLocation" then some (Text.ofString "C:\\y\\")
  else none

def installed : Setup where
  evacuatedOldDir := []
  priorRegistrySnapshot := []
  priorDisplayVersion := []
  priorUninstallString := []
  priorInstallLocation := []
  failedQuarantineOwned := false
  dirs := fun path => if path = installedDir then some ⟨.prior, true⟩ else none
  files := fun _ => none
  registry := installedKey
  readvertised := false

/-- The deletion at the end fails, and nothing else does. -/
def deletionFails (touched : Bool) : Session where
  attempts := [⟨true, true, true, fun _ => true, ⟨true, 0⟩, none, true, true⟩]
  host := .completed installedKey
  commit := .failed touched
  deletes := true
  rollback := ⟨fun _ => true, ⟨true, 0⟩, fun _ => none, fun _ => none, .done, true, true, true, .done, ⟨true, 0⟩,
    fun _ => none, true⟩

theorem coherent_installed : Coherent installedDir installed :=
  ⟨by decide, rfl, rfl, rfl, rfl, rfl⟩

theorem admits_installed : Admits installedDir installed ⟨true, true, true, fun _ => true, ⟨true, 0⟩, none, true, true⟩ :=
  ⟨rfl, rfl, rfl, by decide, by decide, by decide, rfl, rfl⟩

/-- The same, and nothing can be moved out of the way by the rollback. -/
def rollbackFails : Session :=
  { deletionFails true with
    rollback := { (deletionFails true).rollback with uninstaller := ⟨false, 0⟩, quarantines := false } }

/-- Where nothing was deleted the prior installation is back; where a part was, that part is; and where
the rollback fails then, the new installation stays. -/
theorem run_safe_untouched : Safe installedDir installed.registry (deletionFails false)
      (run installedDir (deletionFails false) installed) ∧
    ¬Safe installedDir installed.registry (deletionFails true) (run installedDir (deletionFails true) installed) ∧
    Safe installedDir installed.registry rollbackFails (run installedDir rollbackFails installed) := by
  refine ⟨?_, ?_, ?_⟩
  · refine (run_safe_iff coherent_installed _).2 fun hall => ?_
    exact absurd (Deletion.failed.inj hall.2.1) (by decide)
  · rw [run_safe_iff coherent_installed]
    refine not_not.2 ⟨⟨_, List.mem_cons_self, admits_installed⟩, rfl, installedKey, rfl, fun hstays => ?_⟩
    -- the uninstaller runs, and leaves nothing
    have hruns : Runs installedDir (deletionFails true).rollback
        (fun name => (installedKey name).orElse fun _ => installed.registry name) :=
      ⟨⟨_, rfl, by decide⟩, rfl⟩
    exact nomatch (hstays.left hruns).1
  · refine (run_safe_iff coherent_installed _).2 fun hall => ?_
    obtain ⟨-, -, values, -, hnot⟩ := hall
    exact hnot ⟨fun hruns => (nomatch hruns.2), fun hclean => (nomatch hclean.1.2), fun _ => .inl rfl⟩

end Session

end Installer

end YasbLimitora
