import Mathlib
import YasbLimitora.ConfigApply.Merge
import YasbLimitora.Lib.Faults

/-!
# Applying a selection to the configuration file

`setup_assist._config_gate_one`: while the configuration lease is owned, the file is read,
a selection is merged into its document, the bytes that were there are backed up, the file
is replaced and read again; where something fails after the replacement, what was there is
put back. The lease is given up at the end, whatever came before, and an exception of that
takes the place of what was decided.

What happens while the lease is owned is over the calls `FileCall`, of which each may
raise; `configGateOne` is over these and the calls of the lease.

Exceptions are values of the program, and the `try` statements of the source are operations on
programs (`outcome` and `tried`), so that what is undone after a failure is undone in the same place
as there. The files are the world: the configuration, its backups, and the directory that they are
in. A call that raises leaves them as they are.
-/

namespace YasbLimitora

namespace ConfigApply

open SetupAssist YasbLimitora.Config
open Json (Fields)

def MAX_CONFIG_BYTES : ℕ := 16384

inductive ParentState
  | absent
  | present
  | refusedPath
deriving DecidableEq

/-- A file among the backups. -/
structure Backup where
  name : Text
  modified : ℕ
  /-- It is a file, and no link. -/
  regular : Bool
  content : Bytes

/-- What there is of files, and of the lease. -/
structure Files where
  parent : ParentState
  config : Option Bytes
  backups : List Backup
  temporary : Option Bytes
  /-- The runners that are files. -/
  runners : List Text
  clock : ℕ
  /-- The lease is owned. -/
  owned : Bool
  /-- The lease is one of the guard, and not of the marker. -/
  guarded : Bool

inductive FileCall
  | parentState
  | makeParent
  | leaseOwned
  | readConfig
  | configExists
  | runnerIsFile (runner : Text)
  | makeBackups
  | openBackup
  | writeBackup (name : Text) (content : Bytes)
  | readBackup (name : Text)
  | listBackups
  | removeBackup (name : Text)
  | makeTemporary
  | writeTemporary (content : Bytes)
  | replaceConfig
  | removeTemporary
  | removeConfig
deriving DecidableEq

/-- What a call returns, if it does not raise. No bytes stand for `FileNotFoundError`. -/
def FileCall.Value : FileCall → Type
  | .parentState => ParentState
  | .leaseOwned => Bool
  | .readConfig => Option Bytes
  | .configExists => Bool
  | .runnerIsFile _ => Bool
  | .openBackup => Text
  | .readBackup _ => Option Bytes
  | .listBackups => List Backup
  | _ => Unit

def backupName (stamp : ℕ) : Text :=
  Text.ofString "config." ++ (Text.ofChars (DecimalText.natText stamp) ++ Text.ofString ".json")

/-- The first stamp from the clock on that no backup has. -/
def freeStamp (names : List Text) : ℕ → ℕ → ℕ
  | 0, stamp => stamp
  | fuel + 1, stamp =>
    if backupName stamp ∈ names then freeStamp names fuel (stamp + 1) else stamp

/-- What a call that does not raise returns, and leaves. -/
def FileCall.perform : (c : FileCall) → Files → c.Value × Files
  | .parentState, f => (f.parent, f)
  | .makeParent, f => ((), { f with parent := if f.parent = .absent then .present else f.parent })
  | .leaseOwned, f => (f.owned, f)
  | .readConfig, f => (f.config, f)
  | .configExists, f => (f.config.isSome, f)
  | .runnerIsFile runner, f => (decide (runner ∈ f.runners), f)
  | .makeBackups, f => ((), f)
  | .openBackup, f =>
    let stamp := freeStamp (f.backups.map Backup.name) f.backups.length f.clock
    (backupName stamp, { f with backups := f.backups ++ [⟨backupName stamp, f.clock, true, []⟩] })
  | .writeBackup name content, f => ((), { f with
      backups := f.backups.map fun b => if b.name = name then { b with content := content } else b })
  | .readBackup name, f => ((f.backups.find? fun b => b.name = name).map Backup.content, f)
  | .listBackups, f => (f.backups, f)
  | .removeBackup name, f => ((), { f with backups := f.backups.filter fun b => b.name ≠ name })
  | .makeTemporary, f => ((), { f with temporary := some [] })
  | .writeTemporary content, f => ((), { f with temporary := some content })
  | .replaceConfig, f => ((), { f with config := f.temporary, temporary := none })
  | .removeTemporary, f => ((), { f with temporary := none })
  | .removeConfig, f => ((), { f with config := none })

inductive Raised
  | osError
  | configError
  | guardError
  | other
deriving DecidableEq

abbrev Filing (α : Type) := Transaction FileCall.Value Raised α

inductive Diagnostic
  | config
  | provider (key : ProviderKey)
deriving DecidableEq

inductive Warning
  | runnerNotFile
  | missingApiKey
deriving DecidableEq

/-- What is reported of the operation. -/
inductive Reply
  | ok (warnings : List Warning)
  | refused (reason : String) (diagnostics : List Diagnostic)
deriving DecidableEq

/-! ### Reading -/

/-- A call outside a `try` of its own. -/
def call (c : FileCall) : Filing c.Value := Transaction.call c Raised.osError

/-- The lease is owned, or `OSError` is raised. -/
def checkOwned : Filing Unit := do
  let owned : Bool ← call .leaseOwned
  if owned then return () else throw .osError

/-- `_read_gate_one_config`. -/
def readGateOneConfig : Filing (Option Bytes) := do
  let data : Option Bytes ← call .readConfig
  match data with
  | none => return none
  | some raw => if MAX_CONFIG_BYTES < raw.length then throw .osError else return some raw

/-- `os.path.lexists`. -/
def configExists : Filing Bool := do
  match ← Transaction.tried FileCall.configExists with
  | .raised => return false
  | .returned found => return found

/-- What a part of the program that catches `OSError` of a missing file takes it for. -/
def found (data : Option Bytes) : Filing Bytes :=
  match data with
  | none => throw .osError
  | some raw => return raw

section Documents

variable {F : Type} (floats : Floats F) (limit : ℕ) (floatTexts : FloatTexts)

/-- `ConfigSnapshot`: the bytes that were read, with the invalid providers of their document. -/
structure Snapshot where
  raw : Option Bytes
  providerErrors : List ProviderKey

/-- `_snapshot_from_owned`. -/
def snapshotFromOwned : Filing Snapshot := do
  checkOwned
  match ← readGateOneConfig with
  | none => if ← configExists then throw .osError else return ⟨none, []⟩
  | some raw => match validateConfigDocument floats limit true raw with
    | .ok result => return ⟨some raw, result.2⟩
    | .error .tooDeep => throw .other
    | .error _ => throw .configError

/-! ### Writing -/

/-- `_create_config_backup`. -/
def createConfigBackup (raw : Bytes) : Filing Text := do
  let _ : Unit ← call .makeBackups
  let name : Text ← call .openBackup
  let _ : Unit ← call (.writeBackup name raw)
  return name

/-- `_BACKUP_NAME.fullmatch`: what the pattern is spelled as asks for backslashes. -/
def isBackupName (name : Text) : Bool :=
  name.take 7 = Text.ofString "config\\" ∧ 17 ≤ name.length ∧
    .ch '\n' ∉ (name.drop 7).take (name.length - 15) ∧ (name.drop (name.length - 8)).take 1 = [.ch '\\'] ∧
    .ch '\n' ∉ (name.drop (name.length - 7)).take 1 ∧
    name.drop (name.length - 6) = Text.ofString "json\\Z"

/-- The order of backups. -/
def isOlder (a b : Backup) : Bool :=
  a.modified < b.modified ∨ a.modified = b.modified ∧
    a.name.map CodePoint.value ≤ b.name.map CodePoint.value

/-- Files are removed, one after the other. -/
def removeBackups : List Backup → Filing Unit
  | [] => return ()
  | b :: rest => do
    let _ : Unit ← call (.removeBackup b.name)
    removeBackups rest

/-- `_prune_config_backups`: all but the last five. -/
def pruneConfigBackups : Filing Unit := do
  let listed : List Backup ← call .listBackups
  let backups := (listed.filter fun b => isBackupName b.name && b.regular).mergeSort isOlder
  removeBackups (backups.take (backups.length - 5))

/-- `_atomic_config_write`. -/
def atomicConfigWrite (data : Bytes) : Filing Unit := do
  let _ : Unit ← call .makeTemporary
  let written ← Transaction.outcome do
    let _ : Unit ← call (.writeTemporary data)
    let _ : Unit ← call .replaceConfig
  match written with
  | .ok _ => return ()
  | .error e =>
    let _ ← Transaction.tried FileCall.removeTemporary
    throw e

/-- `_rollback_config_write`. -/
def rollbackConfigWrite (backup : Option Text) : Filing Unit := do
  checkOwned
  match backup with
  | none =>
    let _ : Unit ← call .removeConfig
    checkOwned
    if ← configExists then throw .osError else return ()
  | some name =>
    let stored : Option Bytes ← call (.readBackup name)
    let restored ← found stored
    checkOwned
    atomicConfigWrite restored
    checkOwned
    let reread ← readGateOneConfig
    if reread = some restored then return () else throw .osError

/-- The backup, if there is one to make. -/
def backUp : Option Bytes → Filing (Option Text)
  | none => return none
  | some raw => do
    let name ← createConfigBackup raw
    return some name

/-- The backup and the replacement. -/
def replaceBy (raw : Option Bytes) (merged : Bytes) : Filing (Option Text) := do
  let backup ← backUp raw
  checkOwned
  atomicConfigWrite merged
  return backup

/-- What is checked after the replacement. -/
def checkReplaced (raw : Option Bytes) (merged : Bytes) (selected : Fields) : Filing Unit := do
  checkOwned
  let data ← readGateOneConfig
  let reread ← found data
  match validateConfigDocument floats limit false reread with
  | .error _ => throw .configError
  | .ok _ =>
    if verifyConfigReread floatTexts (raw.getD [0x7B, 0x7D]) reread merged selected then
      if raw.isSome then pruneConfigBackups else return ()
    else throw .osError

/-- The write, from the backup on. Any exception is caught here. -/
def writeConfig (raw : Option Bytes) (merged : Bytes) (selected : Fields) (warnings : List Warning) :
    Filing Reply := do
  match ← (replaceBy raw merged).outcome with
  | .error _ => return .refused "config-write-failed" []
  | .ok backup =>
    match ← (checkReplaced floats limit floatTexts raw merged selected).outcome with
    | .ok _ => return .ok warnings
    | .error _ =>
      match ← (rollbackConfigWrite backup).outcome with
      | .ok _ => return .refused "config-write-failed" []
      | .error .osError => return .refused "config-rollback-failed" []
      | .error e => throw e

/-- A runner is given, and a file. -/
def runnerIsFile : Option Text → Filing Bool
  | none => return false
  | some runner => do
    match ← Transaction.tried (FileCall.runnerIsFile runner) with
    | .raised => return false
    | .returned isFile => return isFile

/-- `_readiness_warnings`, where the API key is in the environment or not. -/
def readinessWarnings (config : LocalConfig F) (apiKey : Bool) : Filing (List Warning) := do
  let runnerFile ← if config.codex.enabled then runnerIsFile config.codex.runner else pure true
  return (if runnerFile then [] else [.runnerNotFile]) ++
    (if config.opencodeGo.enabled && !apiKey then [.missingApiKey] else [])

/-- The merged document of a selection, with the configuration that it is. -/
def mergedConfig (raw : Option Bytes) (selected : Fields) :
    Except Refusal (Bytes × LocalConfig F) :=
  match mergeConfigSelection floatTexts (raw.getD [0x7B, 0x7D]) selected with
  | none => .error .malformed
  | some merged => (validateConfigDocument floats limit false merged).map fun result =>
      (merged, result.1)

/-- `_consume_config_snapshot`. No selection is `_GATE_ONE`. -/
def consumeConfigSnapshot (snapshot : Snapshot) (selection : Option (Json Text)) (apiKey : Bool) :
    Filing Reply := do
  checkOwned
  let unavailable := Reply.refused "config-gate-2-unavailable"
    (snapshot.providerErrors.map Diagnostic.provider)
  match selection with
  | none =>
    if snapshot.raw = none then return .refused "config-absent" [] else return unavailable
  | some selection =>
    match validConfigSelection selection with
    | none => return .refused "config-selection-invalid" []
    | some selected =>
      if snapshot.providerErrors ≠ [] then return unavailable
      else match mergedConfig floats limit floatTexts snapshot.raw selected with
        | .error .tooDeep => throw .other
        | .error _ => return .refused "config-selection-invalid" []
        | .ok merged => do
          let warnings ← readinessWarnings merged.2 apiKey
          checkOwned
          writeConfig floats limit floatTexts snapshot.raw merged.1 selected warnings

def invalid : Reply := .refused "configuration-invalid" [.config]

/-- The body of the `with` statement of `_config_gate_one`. -/
def leaseBody (selection : Option (Json Text)) (apiKey : Bool) : Filing Reply := do
  match ← (snapshotFromOwned floats limit).outcome with
  | .error .configError => return invalid
  | .error .osError => return invalid
  | .error e => throw e
  | .ok snapshot => consumeConfigSnapshot floats limit floatTexts snapshot selection apiKey

/-! ### The lease -/

inductive Call
  | file (c : FileCall)
  | acquireLease
  | releaseMutex
  | closeHandle
  | closeMarker
deriving DecidableEq

def Call.Value : Call → Type
  | .file c => c.Value
  | .acquireLease => Bool
  | _ => Unit

/-- What a call that does not raise returns, and leaves. -/
def Call.perform : (c : Call) → Files → c.Value × Files
  | .file c, f => c.perform f
  | .acquireLease, f => (f.guarded, { f with owned := true })
  | .releaseMutex, f => ((), { f with owned := false })
  | .closeHandle, f => ((), f)
  | .closeMarker, f => ((), { f with owned := false })

abbrev Applying (α : Type) := Transaction Call.Value Raised α

/-- `any` of some tries of a call that has no answer but that it failed. -/
def anyOf (c : Call) : ℕ → Applying Bool
  | 0 => return false
  | tries + 1 => do
    match ← Transaction.tried c with
    | .raised => anyOf c tries
    | .returned _ => return true

def RELEASE_RETRIES : ℕ := 3

/-- The end of `config_lease`. -/
def leave (guarded : Bool) : Applying Unit := do
  if guarded then
    let released ← anyOf .releaseMutex RELEASE_RETRIES
    let closed ← anyOf .closeHandle RELEASE_RETRIES
    if released && closed then return () else throw .guardError
  else
    let closed ← anyOf .closeMarker 1
    if closed then return () else throw .guardError

/-- A body with the lease: what it comes to, unless giving the lease up raises. -/
def withLease (body : Filing Reply) : Applying Reply := do
  let guarded : Bool ← Transaction.call Call.acquireLease Raised.guardError
  let result ← (Transaction.lift Call.file body).outcome
  leave guarded
  match result with
  | .ok reply => return reply
  | .error e => throw e

/-- The rest of `_config_gate_one`, where there is a parent directory. -/
def gatePresent (selection : Option (Json Text)) (apiKey : Bool) : Applying Reply := do
  match ← (withLease (leaseBody floats limit floatTexts selection apiKey)).outcome with
  | .ok reply => return reply
  | .error .guardError => return invalid
  | .error .osError => return invalid
  | .error e => throw e

/-- `_config_gate_one`. -/
def configGateOne (selection : Option (Json Text)) (apiKey : Bool) : Applying Reply := do
  let parent : ParentState ← Transaction.call (Call.file .parentState) Raised.osError
  match parent with
  | .present => gatePresent floats limit floatTexts selection apiKey
  | .refusedPath => return invalid
  | .absent => match selection with
    | none => return .refused "config-absent" []
    | some given => match validConfigSelection given with
      | none => return .refused "config-selection-invalid" []
      | some _ => match ← Transaction.tried (Call.file .makeParent) with
        | .raised => return invalid
        | .returned _ =>
          let parent : ParentState ← Transaction.call (Call.file .parentState) Raised.osError
          if parent = .present then gatePresent floats limit floatTexts selection apiKey
          else return invalid

/-- The run of the operation, in which any call may raise. -/
def run (selection : Option (Json Text)) (apiKey : Bool) (raises : ℕ → Call → Bool) (f : Files) :
    Ran Call (fun c => Answer c.Value) Files (Except Raised Reply) :=
  Prog.run (Faults.faulty Call.perform (fun _ f => f) raises) 0
    (configGateOne floats limit floatTexts selection apiKey).run f

end Documents

end ConfigApply

end YasbLimitora
