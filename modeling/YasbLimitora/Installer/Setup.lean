import Mathlib
import YasbLimitora.Lib.Text

/-!
# Setup of a release over a prior one

The callbacks of `packaging/inno/yasb-limitora.iss` by which setup replaces a prior installation:
`PrepareToInstall`, `CurStepChanged`, `DeinitializeSetup` and `RestoreEvacuatedPriorInstall`, with the
variables of the script, the directories, the files and the uninstall key in one state
(`YasbLimitora.Installer.Setup`). A run of setup (`YasbLimitora.Installer.run`) is the callbacks in the
order in which Inno Setup calls them, around an installation that may end before `ssPostInstall`.

What setup does not decide is given for each call: what a program that is run comes to, whether a
rename is done, and what a deletion comes to, which may fail and have deleted a part
(`YasbLimitora.Installer.Deletion`). The uninstaller of the new release, whose second phase goes on when
the first has returned, has left something of the payload at each poll, and something of the uninstall
key. Of a payload it is kept whose it is, and whether all of it is there
(`YasbLimitora.Installer.Tree`).
-/

namespace YasbLimitora

namespace Installer

/-! ### Strings -/

def lower : CodePoint → CodePoint
  | .ch c => .ch c.toLower
  | p => p

/-- `SameText`, which does not see the case of ASCII letters. -/
def sameText (s t : Text) : Bool := s.map lower == t.map lower

/-- `RemoveQuotes`. -/
def removeQuotes (s : Text) : Text := (s.dropWhile (· == .ch '"')).rdropWhile (· == .ch '"')

/-- `RemoveBackslash`. -/
def removeBackslash (s : Text) : Text := if s.getLast? = some (.ch '\\') then s.dropLast else s

/-- `ExtractFilePath`: all up to the last delimiter. -/
def extractFilePath (s : Text) : Text :=
  s.rdropWhile fun p => p != .ch '\\' && p != .ch '/' && p != .ch ':'

def G1PriorPayloadSuffix : Text := Text.ofString ".old"

def G1FailedPayloadSuffix : Text := Text.ofString ".failed"

def G1RegistrySnapshotSuffix : Text := Text.ofString ".reg"

def G1UninstallCleanupBudgetMs : ℕ := 30000

def G1UninstallCleanupPollMs : ℕ := 250

def oldDir (appDir : Text) : Text := appDir ++ G1PriorPayloadSuffix

def failedDir (appDir : Text) : Text := appDir ++ G1FailedPayloadSuffix

def snapshotPath (appDir : Text) : Text := oldDir appDir ++ G1RegistrySnapshotSuffix

/-! ### The machine -/

inductive Release
  | prior
  | new
deriving DecidableEq

/-- The payload of a release, and whether all of it is there. -/
structure Tree where
  release : Release
  whole : Bool
deriving DecidableEq

/-- The values of the uninstall key. -/
abbrev Key := String → Option Text

/-- The variables of the script, the directories, the exported registrations and the uninstall
key. -/
structure Setup where
  evacuatedOldDir : Text
  priorRegistrySnapshot : Text
  priorDisplayVersion : Text
  priorUninstallString : Text
  priorInstallLocation : Text
  failedQuarantineOwned : Bool
  dirs : Text → Option Tree
  files : Text → Option Key
  registry : Key
  /-- The exported registration was imported. -/
  readvertised : Bool

/-- What a program that is run comes to. -/
structure Exec where
  ran : Bool
  code : ℤ

def Exec.succeeds (e : Exec) : Bool := e.ran && e.code == 0

/-- What the deletion of a tree comes to; one that fails may have deleted a part. -/
inductive Deletion
  | done
  | failed (touched : Bool)
deriving DecidableEq

namespace Setup

def setDir (σ : Setup) (path : Text) (tree : Option Tree) : Setup :=
  { σ with dirs := Function.update σ.dirs path tree }

def setFile (σ : Setup) (path : Text) (file : Option Key) : Setup :=
  { σ with files := Function.update σ.files path file }

/-- `DirExists`. -/
def dirExists (σ : Setup) (path : Text) : Bool := (σ.dirs path).isSome

/-- A directory stands where another one is not. -/
def moved (σ : Setup) (source target : Text) : Setup := (σ.setDir target (σ.dirs source)).setDir source none

/-- `RenameFile`, of a directory. -/
def renameFile (σ : Setup) (ok : Bool) (source target : Text) : Bool × Setup :=
  if ok && σ.dirExists source && !σ.dirExists target then (true, σ.moved source target) else (false, σ)

/-- `DelTree`. -/
def delTree (σ : Setup) (path : Text) : Deletion → Bool × Setup
  | .done => (true, σ.setDir path none)
  | .failed touched =>
    (false, σ.setDir path ((σ.dirs path).map fun t => { t with whole := t.whole && !touched }))

/-- `DeleteFile`, whose result nobody asks for. -/
def deleteFile (σ : Setup) (ok : Bool) (path : Text) : Setup := if ok then σ.setFile path none else σ

/-- `RegQueryStringValue`, into a variable that keeps its text where there is no value. -/
def query (σ : Setup) (name : String) (text : Text) : Text := (σ.registry name).getD text

/-- The three queries of `PrepareToInstall`. -/
def queryPrior (σ : Setup) : Setup :=
  { σ with
    priorDisplayVersion := σ.query "DisplayVersion" σ.priorDisplayVersion
    priorUninstallString := σ.query "UninstallString" σ.priorUninstallString
    priorInstallLocation := σ.query "InstallLocation" σ.priorInstallLocation }

end Setup

/-! ### The callbacks -/

def hasCoherentPriorInstallOwnership (fileExists : Text → Bool)
    (appDir priorUninstallString priorInstallLocation : Text) : Bool :=
  if priorUninstallString = [] ∨ priorInstallLocation = [] then false
  else if !sameText (removeBackslash priorInstallLocation) (removeBackslash appDir) then false
  else
    let priorUninstaller := removeQuotes priorUninstallString
    if !sameText (removeBackslash (extractFilePath priorUninstaller)) (removeBackslash appDir) then false
    else fileExists priorUninstaller

def hasOwnedNewUninstaller (fileExists : Text → Bool) (appDir uninstallString : Text) : Bool :=
  let candidate := removeQuotes uninstallString
  if candidate = [] then false
  else if !sameText (removeBackslash (extractFilePath candidate)) (removeBackslash appDir) then false
  else fileExists candidate

/-- What happens around one call of `PrepareToInstall`. -/
structure PrepareFaults where
  consentArgumentsValid : Bool
  /-- The consents were captured before, or are now. -/
  consentCaptured : Bool
  manualCloseGate : Bool
  fileExists : Text → Bool
  exports : Exec
  /-- What an export that fails leaves at the path of the snapshot. -/
  exportLeft : Option Key
  evacuates : Bool
  deletes : Bool

/-- The end of `PrepareToInstall`: the registration is exported, and the payload moved aside. -/
def evacuatePrior (appDir : Text) (f : PrepareFaults) (σ : Setup) : Text × Setup :=
  if !f.exports.succeeds then
    (Text.ofString "Prior-registry snapshot export failed (code " ++ Text.ofString (toString f.exports.code) ++
      Text.ofString "); aborting with the prior install intact.",
      (σ.setFile (snapshotPath appDir) f.exportLeft).deleteFile f.deletes (snapshotPath appDir))
  else
    let (moved, σ) := (σ.setFile (snapshotPath appDir) (some σ.registry)).renameFile f.evacuates appDir
      (oldDir appDir)
    if moved then
      ([], { σ with evacuatedOldDir := oldDir appDir, priorRegistrySnapshot := snapshotPath appDir })
    else
      (Text.ofString "Pre-install evacuation of " ++ appDir ++
        Text.ofString " failed; aborting with the prior install intact.",
        σ.deleteFile f.deletes (snapshotPath appDir))

/-- `PrepareToInstall`: the text that stops setup, if it is not empty. -/
def prepareToInstall (appDir : Text) (f : PrepareFaults) (σ : Setup) : Text × Setup :=
  if !f.consentArgumentsValid then
    (Text.ofString "Invalid or conflicting consent arguments; setup aborted before changes.", σ)
  else if !f.consentCaptured then
    (Text.ofString "Consent arguments or prerequisites could not be validated; setup aborted before changes.", σ)
  else if !f.manualCloseGate then
    (Text.ofString "Operator cancelled the YASB manual-close gate; aborting with the prior install intact.", σ)
  else
    let σ := σ.queryPrior
    if σ.dirExists (failedDir appDir) then
      (Text.ofString "Stale " ++ failedDir appDir ++
        Text.ofString " from an interrupted recovery; aborting with the prior install intact.", σ)
    else if !σ.dirExists appDir then ([], σ)
    else if σ.dirExists (oldDir appDir) then
      (Text.ofString "Stale " ++ oldDir appDir ++
        Text.ofString " from an interrupted run; aborting with the prior install intact.", σ)
    else if !hasCoherentPriorInstallOwnership f.fileExists appDir σ.priorUninstallString
        σ.priorInstallLocation then
      (Text.ofString "Existing " ++ appDir ++
        Text.ofString " lacks coherent prior-install ownership evidence; aborting with the directory untouched.", σ)
    else evacuatePrior appDir f σ

/-- What happens around `RestoreEvacuatedPriorInstall`. -/
structure RollbackFaults where
  fileExists : Text → Bool
  uninstaller : Exec
  /-- What the uninstaller has left of the payload when it returns, and after each poll: nothing,
  or something that is whole or not. -/
  left : ℕ → Option Bool
  /-- What it leaves of the uninstall key. -/
  leftKey : Key
  clearsQuarantine : Deletion
  quarantines : Bool
  restores : Bool
  putsBack : Bool
  discards : Deletion
  imports : Exec
  /-- What an import that fails leaves of the uninstall key. -/
  importLeft : Key
  deletes : Bool

namespace Setup

/-- What the uninstaller has left at a poll. -/
def leave (σ : Setup) (appDir : Text) (left : Option Bool) : Setup :=
  σ.setDir appDir ((σ.dirs appDir).bind fun t => left.map fun whole => { t with whole := t.whole && whole })

/-- The first step of the rollback: whether the new uninstaller ran, and ran cleanly. -/
def uninstallNew (σ : Setup) (appDir : Text) (f : RollbackFaults) : Bool × Setup :=
  match σ.registry "UninstallString" with
  | none => (false, σ)
  | some newUninstallString =>
    if hasOwnedNewUninstaller f.fileExists appDir newUninstallString && f.uninstaller.ran then
      (f.uninstaller.code == 0, { σ.leave appDir (f.left 0) with registry := f.leftKey })
    else (false, σ)

/-- The bounded wait for the second phase of the uninstaller, which `n` polls have come before. -/
def awaitCleanup (appDir : Text) (f : RollbackFaults) : ℕ → ℕ → Setup → Setup
  | 0, _, σ => σ
  | rounds + 1, n, σ =>
    if σ.dirExists appDir then awaitCleanup appDir f rounds (n + 1) (σ.leave appDir (f.left (n + 1)))
    else σ

/-- The new payload is moved out of the way, if there is any. -/
def quarantineNew (σ : Setup) (appDir : Text) (f : RollbackFaults) : Bool × Setup :=
  if σ.dirExists appDir then
    let (moved, σ) := σ.renameFile f.quarantines appDir (failedDir appDir)
    if moved then (true, { σ with failedQuarantineOwned := true }) else (false, σ)
  else (true, σ)

/-- A quarantine that this run of setup made is deleted. -/
def deleteQuarantine (σ : Setup) (appDir : Text) (d : Deletion) : Bool × Setup :=
  if σ.failedQuarantineOwned && σ.dirExists (failedDir appDir) then σ.delTree (failedDir appDir) d
  else (true, σ)

/-- The last step: the exported registration is imported. -/
def readvertise (σ : Setup) (f : RollbackFaults) : Setup :=
  if σ.priorUninstallString ≠ [] ∧ σ.priorRegistrySnapshot ≠ [] then
    if f.imports.succeeds then
      let imported : Key := fun name =>
        ((σ.files σ.priorRegistrySnapshot).bind fun snapshot => snapshot name).orElse fun _ => σ.registry name
      { σ.deleteFile f.deletes σ.priorRegistrySnapshot with
        registry := imported, priorRegistrySnapshot := [], readvertised := true }
    else { σ with registry := f.importLeft }
  else σ

end Setup

/-- The end of the rollback: the prior payload is put back, and its registration. -/
def restorePayload (appDir : Text) (f : RollbackFaults) (σ : Setup) : Setup :=
  let (restored, σ) := σ.renameFile f.restores σ.evacuatedOldDir appDir
  if !restored then
    if σ.failedQuarantineOwned && σ.dirExists (failedDir appDir) then
      (σ.renameFile f.putsBack (failedDir appDir) appDir).2
    else σ
  else
    let (discarded, σ) := σ.deleteQuarantine appDir f.discards
    if !discarded then σ
    else Setup.readvertise { σ with failedQuarantineOwned := false, evacuatedOldDir := [] } f

/-- The rollback once the uninstaller is done: from the second step on. -/
def putPriorBack (appDir : Text) (f : RollbackFaults) (σ : Setup) : Setup :=
  let owned := σ.failedQuarantineOwned && σ.dirExists (failedDir appDir)
  let (cleared, σ) := σ.deleteQuarantine appDir f.clearsQuarantine
  if !cleared then σ
  else
    let (moved, σ) := (if owned then { σ with failedQuarantineOwned := false } else σ).quarantineNew appDir f
    if !moved then σ else restorePayload appDir f σ

/-- `RestoreEvacuatedPriorInstall`. -/
def restoreEvacuatedPriorInstall (appDir : Text) (f : RollbackFaults) (σ : Setup) : Setup :=
  let (clean, σ) := σ.uninstallNew appDir f
  let σ := if clean then
    Setup.awaitCleanup appDir f (G1UninstallCleanupBudgetMs / G1UninstallCleanupPollMs) 0 σ else σ
  if clean && σ.dirExists appDir then σ else putPriorBack appDir f σ

/-- The exported registration is deleted, and forgotten. -/
def Setup.dropSnapshot (σ : Setup) (deletes : Bool) : Setup :=
  if σ.priorRegistrySnapshot ≠ [] then
    { σ.deleteFile deletes σ.priorRegistrySnapshot with priorRegistrySnapshot := [] }
  else σ

/-- `CurStepChanged`, at `ssPostInstall`: whether it goes on, without `InvokePostCommitAssist`. -/
def curStepChanged (d : Deletion) (deletes : Bool) (σ : Setup) : Bool × Setup :=
  if σ.evacuatedOldDir ≠ [] then
    let (deleted, σ) := σ.delTree σ.evacuatedOldDir d
    if !deleted then (false, σ) else (true, { σ.dropSnapshot deletes with evacuatedOldDir := [] })
  else (true, σ)

/-- `DeinitializeSetup`. -/
def deinitializeSetup (appDir : Text) (f : RollbackFaults) (σ : Setup) : Setup :=
  if σ.evacuatedOldDir ≠ [] then restoreEvacuatedPriorInstall appDir f σ else σ

/-! ### Runs -/

/-- What setup itself does when it is not stopped: it ends before `ssPostInstall`, with what
there is by then, or the new payload is complete and registered. -/
inductive Host
  | aborted (left : Option Bool) (registry : Key)
  | completed (values : Key)

/-- What happens around one run of setup. Whoever is stopped may try again. -/
structure Session where
  attempts : List PrepareFaults
  host : Host
  commit : Deletion
  deletes : Bool
  rollback : RollbackFaults

/-- `PrepareToInstall`, until it stops setup no more: whether it does not. -/
def prepare (appDir : Text) : List PrepareFaults → Setup → Bool × Setup
  | [], σ => (false, σ)
  | f :: attempts, σ =>
    let (stop, σ) := prepareToInstall appDir f σ
    if stop = [] then (true, σ) else prepare appDir attempts σ

/-- The installation itself, and `CurStepChanged`. -/
def install (appDir : Text) (s : Session) (σ : Setup) : Setup :=
  match s.host with
  | .aborted left registry =>
    { σ.setDir appDir (left.map (Tree.mk .new)) with registry := registry }
  | .completed values =>
    let installed : Key := fun name => (values name).orElse fun _ => σ.registry name
    (curStepChanged s.commit s.deletes
      { σ.setDir appDir (some ⟨.new, true⟩) with registry := installed }).2

def run (appDir : Text) (s : Session) (σ : Setup) : Setup :=
  let (prepared, σ) := prepare appDir s.attempts σ
  deinitializeSetup appDir s.rollback (if prepared then install appDir s σ else σ)

end Installer

end YasbLimitora
