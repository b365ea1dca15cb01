import Mathlib
import YasbLimitora.Installer.Setup

/-!
# The evacuation of a prior payload

`PrepareToInstall` over a prior installation (`YasbLimitora.Installer.Coherent`): it exports the
registration and moves the payload aside, or it stops setup and leaves all as it was
(`YasbLimitora.Installer.prepareToInstall_cases`). Which of the two happens is told by what it asks of the
machine, and by the faults that strike it (`YasbLimitora.Installer.Admits`). The operator whom it stops
may try again; whatever was tried before, the payload is moved aside if and only if one of the attempts
is admitted (`YasbLimitora.Installer.prepare_cases`).

What is true from there until the end of setup is kept in `YasbLimitora.Installer.Evacuated`: the prior
payload is aside, with its registration in a file and no other tree of it where the new one is
installed.
-/

namespace YasbLimitora

namespace Installer

/-- A prior installation, before setup has done anything. -/
structure Coherent (appDir : Text) (σ : Setup) : Prop where
  payload : σ.dirs appDir = some ⟨.prior, true⟩
  evacuated : σ.evacuatedOldDir = []
  uninstallString : σ.priorUninstallString = []
  installLocation : σ.priorInstallLocation = []
  notOwned : σ.failedQuarantineOwned = false
  notReadvertised : σ.readvertised = false

/-! ### Directories -/

section Directories

variable {appDir : Text} {σ : Setup} {path other : Text} {tree : Option Tree}

@[simp] theorem Setup.dirs_setDir_self : (σ.setDir path tree).dirs path = tree := Function.update_self ..

theorem Setup.dirs_setDir_of_ne (h : other ≠ path) : (σ.setDir path tree).dirs other = σ.dirs other :=
  Function.update_of_ne h ..

/-- A rename succeeds if its source is there, its target is not, and the system lets it. -/
theorem Setup.renameFile_eq {source target : Text} (ok : Bool) (hs : σ.dirExists source = true)
    (ht : σ.dirExists target = false) :
    σ.renameFile ok source target = if ok then (true, σ.moved source target) else (false, σ) := by
  rw [Setup.renameFile, hs, ht, Bool.and_true, Bool.not_false, Bool.and_true]

/-- The target of a rename has the tree of its source. -/
theorem Setup.dirs_moved_target {source target : Text} (h : target ≠ source) :
    (σ.moved source target).dirs target = σ.dirs source := by
  rw [Setup.moved, Setup.dirs_setDir_of_ne h, Setup.dirs_setDir_self]

/-- A rename leaves all other directories alone. -/
theorem Setup.dirs_moved_of_ne {source target : Text} (hs : other ≠ source) (ht : other ≠ target) :
    (σ.moved source target).dirs other = σ.dirs other := by
  rw [Setup.moved, Setup.dirs_setDir_of_ne hs, Setup.dirs_setDir_of_ne ht]

@[simp] theorem Setup.dirs_deleteFile (ok : Bool) (file : Text) : (σ.deleteFile ok file).dirs = σ.dirs := by
  unfold Setup.deleteFile
  split_ifs <;> rfl

@[simp] theorem Setup.registry_deleteFile (ok : Bool) (file : Text) :
    (σ.deleteFile ok file).registry = σ.registry := by
  unfold Setup.deleteFile
  split_ifs <;> rfl

@[simp] theorem Setup.dirs_dropSnapshot (ok : Bool) : (σ.dropSnapshot ok).dirs = σ.dirs := by
  unfold Setup.dropSnapshot
  split_ifs
  · exact Setup.dirs_deleteFile ..
  · rfl

@[simp] theorem Setup.registry_dropSnapshot (ok : Bool) : (σ.dropSnapshot ok).registry = σ.registry := by
  unfold Setup.dropSnapshot
  split_ifs
  · exact Setup.registry_deleteFile ..
  · rfl

/-- The directory of the prior installation is not that of the application. -/
theorem oldDir_ne : oldDir appDir ≠ appDir := by
  intro h
  simpa [oldDir, G1PriorPayloadSuffix, Text.ofString, Text.ofChars] using congrArg List.length h

/-- The directory of a failed installation is not that of the application. -/
theorem failedDir_ne : failedDir appDir ≠ appDir := by
  intro h
  simpa [failedDir, G1FailedPayloadSuffix, Text.ofString, Text.ofChars] using congrArg List.length h

/-- The directories that are set aside are two. -/
theorem oldDir_ne_failedDir : oldDir appDir ≠ failedDir appDir := by
  intro h
  exact absurd (List.append_cancel_left h) (by decide)

theorem oldDir_ne_nil : oldDir appDir ≠ [] := List.append_ne_nil_of_right_ne_nil _ (by decide)

theorem snapshotPath_ne_nil : snapshotPath appDir ≠ [] := List.append_ne_nil_of_right_ne_nil _ (by decide)

end Directories

/-! ### The way to an evacuated payload -/

theorem ofString_ne_nil {s : String} (h : s ≠ "") : Text.ofString s ≠ [] := fun hnil =>
  h (Text.ofString_injective hnil)

section Prepare

variable {appDir : Text} {σ₀ σ : Setup} {f : PrepareFaults}

/-- What `PrepareToInstall` asks of the machine that it finds, and that no fault strikes it. -/
structure Admits (appDir : Text) (σ : Setup) (f : PrepareFaults) : Prop where
  valid : f.consentArgumentsValid = true
  captured : f.consentCaptured = true
  gate : f.manualCloseGate = true
  noFailed : σ.dirExists (failedDir appDir) = false
  noOld : σ.dirExists (oldDir appDir) = false
  owned : hasCoherentPriorInstallOwnership f.fileExists appDir ((σ.registry "UninstallString").getD [])
    ((σ.registry "InstallLocation").getD []) = true
  exported : f.exports.succeeds = true
  evacuates : f.evacuates = true

/-- Setup has only asked so far. -/
structure Untouched (σ₀ σ : Setup) : Prop where
  dirs : σ.dirs = σ₀.dirs
  registry : σ.registry = σ₀.registry
  evacuated : σ.evacuatedOldDir = []
  uninstallString : σ.queryPrior.priorUninstallString = (σ₀.registry "UninstallString").getD []
  installLocation : σ.queryPrior.priorInstallLocation = (σ₀.registry "InstallLocation").getD []
  notOwned : σ.failedQuarantineOwned = false
  notReadvertised : σ.readvertised = false

/-- The prior payload, or what there is of it, is aside, and its registration exported. -/
structure Evacuated (appDir : Text) (key : Key) (whole : Bool) (σ : Setup) : Prop where
  old : σ.dirs (oldDir appDir) = some ⟨.prior, whole⟩
  /-- What is installed is of the new release. -/
  app : ∀ tree, σ.dirs appDir = some tree → tree.release = .new
  failed : σ.dirs (failedDir appDir) = none
  evacuated : σ.evacuatedOldDir = oldDir appDir
  snapshot : σ.priorRegistrySnapshot = snapshotPath appDir
  file : σ.files (snapshotPath appDir) = some key
  uninstallString : σ.priorUninstallString ≠ []
  notOwned : σ.failedQuarantineOwned = false
  notReadvertised : σ.readvertised = false

/-- A setup that has not begun has touched nothing. -/
theorem Coherent.untouched (h : Coherent appDir σ) : Untouched σ σ where
  dirs := rfl
  registry := rfl
  evacuated := h.evacuated
  uninstallString := congrArg (Option.getD _) h.uninstallString
  installLocation := congrArg (Option.getD _) h.installLocation
  notOwned := h.notOwned
  notReadvertised := h.notReadvertised

/-- To look the prior installation up touches nothing. -/
theorem Untouched.queryPrior (h : Untouched σ₀ σ) : Untouched σ₀ σ.queryPrior where
  dirs := h.dirs
  registry := h.registry
  evacuated := h.evacuated
  uninstallString := by
    rw [← h.uninstallString]
    cases hvalue : σ.registry "UninstallString" <;> simp [Setup.queryPrior, Setup.query, hvalue]
  installLocation := by
    rw [← h.installLocation]
    cases hvalue : σ.registry "InstallLocation" <;> simp [Setup.queryPrior, Setup.query, hvalue]
  notOwned := h.notOwned
  notReadvertised := h.notReadvertised

/-- A file beside the directories touches nothing of what is installed. -/
theorem Untouched.setFile (h : Untouched σ₀ σ) (path : Text) (file : Option Key) :
    Untouched σ₀ (σ.setFile path file) :=
  ⟨h.dirs, h.registry, h.evacuated, h.uninstallString, h.installLocation, h.notOwned, h.notReadvertised⟩

/-- Nor does it where it is deleted, or is not. -/
theorem Untouched.deleteFile (h : Untouched σ₀ σ) (ok : Bool) (path : Text) :
    Untouched σ₀ (σ.deleteFile ok path) := by
  unfold Setup.deleteFile
  split_ifs
  · exact h.setFile path none
  · exact h

/-- What is there is what was there before. -/
theorem Untouched.dirExists (h : Untouched σ₀ σ) (path : Text) : σ.dirExists path = σ₀.dirExists path := by
  rw [Setup.dirExists, h.dirs, Setup.dirExists]

theorem suffixed_ne_nil (a b : Text) {s : String} (h : s ≠ "") : a ++ b ++ Text.ofString s ≠ [] :=
  List.append_ne_nil_of_right_ne_nil _ (ofString_ne_nil h)

/-- **The prior installation is set aside**, with its registration exported, or nothing was touched and
there is a message. -/
theorem evacuatePrior_cases (h₀ : Coherent appDir σ₀) (h : Untouched σ₀ σ)
    (hold : σ₀.dirExists (oldDir appDir) = false) (hfailed : σ₀.dirExists (failedDir appDir) = false)
    (hne : σ.priorUninstallString ≠ []) :
    (f.exports.succeeds = true ∧ f.evacuates = true ∧ (evacuatePrior appDir f σ).1 = [] ∧
      Evacuated appDir σ₀.registry true (evacuatePrior appDir f σ).2 ∧
      (evacuatePrior appDir f σ).2.registry = σ₀.registry) ∨
    (¬(f.exports.succeeds = true ∧ f.evacuates = true) ∧ (evacuatePrior appDir f σ).1 ≠ [] ∧
      Untouched σ₀ (evacuatePrior appDir f σ).2) := by
  have happ : σ₀.dirExists appDir = true := by rw [Setup.dirExists, h₀.payload]; rfl
  unfold evacuatePrior
  cases hexported : f.exports.succeeds with
  | false =>
    exact Or.inr ⟨fun ha => absurd ha.1 (by decide), suffixed_ne_nil _ _ (by decide),
      (h.setFile _ _).deleteFile _ _⟩
  | true =>
  rw [if_neg (by decide : ¬(!true) = true)]
  have hs := h.setFile (snapshotPath appDir) (some σ.registry)
  rw [Setup.renameFile_eq f.evacuates ((hs.dirExists _).trans happ) ((hs.dirExists _).trans hold)]
  cases hevacuates : f.evacuates with
  | false =>
    rw [if_neg Bool.false_ne_true]
    exact Or.inr ⟨fun ha => absurd ha.2 (by decide), suffixed_ne_nil _ _ (by decide), hs.deleteFile _ _⟩
  | true =>
  rw [if_pos rfl]
  refine Or.inl ⟨rfl, rfl, rfl, ⟨?_, fun tree htree => ?_, ?_, rfl, rfl, ?_, hne, h.notOwned, h.notReadvertised⟩, h.registry⟩
  · exact (Setup.dirs_moved_target oldDir_ne).trans ((congrFun hs.dirs _).trans h₀.payload)
  · exact nomatch Setup.dirs_setDir_self.symm.trans htree
  · refine (Setup.dirs_moved_of_ne failedDir_ne oldDir_ne_failedDir.symm).trans ((congrFun hs.dirs _).trans ?_)
    exact Option.isNone_iff_eq_none.1 (Option.isSome_eq_false_iff.1 hfailed)
  · rw [← h.registry]
    exact Function.update_self ..

/-- **`PrepareToInstall` moves the prior payload aside, or leaves all as it was** and stops
setup. -/
theorem prepareToInstall_cases (h₀ : Coherent appDir σ₀) (h : Untouched σ₀ σ) :
    (Admits appDir σ₀ f ∧ (prepareToInstall appDir f σ).1 = [] ∧
      Evacuated appDir σ₀.registry true (prepareToInstall appDir f σ).2 ∧
      (prepareToInstall appDir f σ).2.registry = σ₀.registry) ∨
    (¬Admits appDir σ₀ f ∧ (prepareToInstall appDir f σ).1 ≠ [] ∧
      Untouched σ₀ (prepareToInstall appDir f σ).2) := by
  have hq := h.queryPrior
  have happ : σ₀.dirExists appDir = true := by rw [Setup.dirExists, h₀.payload]; rfl
  unfold prepareToInstall
  cases hvalid : f.consentArgumentsValid with
  | false => exact Or.inr ⟨fun ha => absurd (hvalid.symm.trans ha.valid) (by decide), ofString_ne_nil (by decide), h⟩
  | true =>
  rw [if_neg (by decide : ¬(!true) = true)]
  cases hcaptured : f.consentCaptured with
  | false =>
    exact Or.inr ⟨fun ha => absurd (hcaptured.symm.trans ha.captured) (by decide), ofString_ne_nil (by decide), h⟩
  | true =>
  rw [if_neg (by decide : ¬(!true) = true)]
  cases hgate : f.manualCloseGate with
  | false => exact Or.inr ⟨fun ha => absurd (hgate.symm.trans ha.gate) (by decide), ofString_ne_nil (by decide), h⟩
  | true =>
  rw [if_neg (by decide : ¬(!true) = true)]
  simp only [hq.dirExists, happ, h.uninstallString, h.installLocation]
  cases hfailed : σ₀.dirExists (failedDir appDir) with
  | true =>
    exact Or.inr ⟨fun ha => absurd (hfailed.symm.trans ha.noFailed) (by decide), suffixed_ne_nil _ _ (by decide), hq⟩
  | false =>
  rw [if_neg Bool.false_ne_true, if_neg (by decide : ¬(!true) = true)]
  cases hold : σ₀.dirExists (oldDir appDir) with
  | true => exact Or.inr ⟨fun ha => absurd (hold.symm.trans ha.noOld) (by decide), suffixed_ne_nil _ _ (by decide), hq⟩
  | false =>
  rw [if_neg Bool.false_ne_true]
  cases howned : hasCoherentPriorInstallOwnership f.fileExists appDir ((σ₀.registry "UninstallString").getD [])
      ((σ₀.registry "InstallLocation").getD []) with
  | false => exact Or.inr ⟨fun ha => absurd (howned.symm.trans ha.owned) (by decide), suffixed_ne_nil _ _ (by decide), hq⟩
  | true =>
  rw [if_neg (by decide : ¬(!true) = true)]
  have hne : σ.queryPrior.priorUninstallString ≠ [] := by
    rw [h.uninstallString]
    intro hnil
    rw [hasCoherentPriorInstallOwnership, if_pos (Or.inl hnil)] at howned
    exact absurd howned (by decide)
  rcases evacuatePrior_cases h₀ hq hold hfailed hne with ⟨hexported, hevacuates, h⟩ | ⟨hnot, h⟩
  · exact Or.inl ⟨⟨hvalid, hcaptured, hgate, hfailed, hold, howned, hexported, hevacuates⟩, h⟩
  · exact Or.inr ⟨fun ha => hnot ⟨ha.exported, ha.evacuates⟩, h⟩

/-- **The prior payload is moved aside if and only if one of the attempts is admitted.** -/
theorem prepare_cases (h₀ : Coherent appDir σ₀) (attempts : List PrepareFaults) (h : Untouched σ₀ σ) :
    ((∃ f ∈ attempts, Admits appDir σ₀ f) ∧ (prepare appDir attempts σ).1 = true ∧
      Evacuated appDir σ₀.registry true (prepare appDir attempts σ).2 ∧
      (prepare appDir attempts σ).2.registry = σ₀.registry) ∨
    ((∀ f ∈ attempts, ¬Admits appDir σ₀ f) ∧ (prepare appDir attempts σ).1 = false ∧
      Untouched σ₀ (prepare appDir attempts σ).2) := by
  induction attempts generalizing σ with
  | nil => exact Or.inr ⟨List.forall_mem_nil _, rfl, h⟩
  | cons f attempts ih =>
    rw [List.exists_mem_cons_iff, List.forall_mem_cons]
    rcases prepareToInstall_cases (f := f) h₀ h with ⟨hadmits, hgoes, hevacuated⟩ | ⟨hnot, hstops, huntouched⟩
    · simp only [prepare, if_pos hgoes]
      exact Or.inl ⟨Or.inl hadmits, trivial, hevacuated⟩
    · simp only [prepare, if_neg hstops]
      rcases ih huntouched with ⟨hadmits, hrest⟩ | ⟨hnone, hrest⟩
      · exact Or.inl ⟨Or.inr hadmits, hrest⟩
      · exact Or.inr ⟨⟨hnot, hnone⟩, hrest⟩

end Prepare

end Installer

end YasbLimitora
