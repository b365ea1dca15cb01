import Mathlib
import YasbLimitora.EnvBlock.Rewrite
import YasbLimitora.Lib.Faults

/-!
# Applying the managed block

`_env_block.apply`: the block is written to a temporary file, which takes the place of `.env`;
where something fails after that, what was there is put back. The home directory is made where
there is none, and removed again by the rollback.

Each operation has a name of its own here, the third check of the home directory for one, so
that a disk (`YasbLimitora.EnvBlock.Disk`) is a schedule of everything that can go wrong. A
check of a place (`_safe`) has no exception of its own: it answers no where it fails. The looks
of the standard library raise where they fail, or find what there is. For `is_file` these are
two operations, since a file that is no regular one is found without an exception. The errors
for which `exists` answers no although there is something are not among those of a disk.
-/

namespace YasbLimitora

namespace EnvBlock

/-- What is checked to be safe. -/
inductive Place
  | home
  | state
  | target
  | temporary
  | backup
deriving DecidableEq

/-- The operations. `readTarget` and the other readings, `makeBackup` and `hold` stand for
all that `_checked_read`, `_checked_backup` and `_held_destination_directory` do: where a part of
it fails, nothing is left of it that matters here. -/
inductive Op
  | safe (place : Place) (nth : ℕ)
  | statTarget
  | isFile
  | probeTarget
  | homeExists
  | targetExists
  | makeHome
  | readTarget
  | makeBackup (raw : Bytes)
  | hold
  | makeTemporary
  | writeTemporary (content : Bytes)
  | replaceTarget
  | readReplaced
  | readBackup
  | openTarget
  | openedAt
  | truncateTarget
  | writeTarget (raw : Bytes)
  | syncTarget
  | closeTarget
  | readRestored
  | targetLeft
  | unlinkTarget
  | listHome
  | removeHome
  | release
  | removeTemporary
deriving DecidableEq

/-- What an operation returns. -/
def Op.Value : Op → Type
  | .probeTarget => Bool
  | .homeExists => Bool
  | .targetExists => Bool
  | .targetLeft => Bool
  | .listHome => Bool
  | .readTarget => Bytes
  | .readReplaced => Bytes
  | .readBackup => Bytes
  | .readRestored => Bytes
  | _ => Unit

/-- The home directory: its `.env`, the temporary file in it, and whether there is more. -/
structure Home where
  env : Option Bytes
  temporary : Option Bytes
  others : Bool
deriving DecidableEq

/-- The home directory, if there is one, and the backup. -/
structure World where
  home : Option Home
  backup : Bytes
deriving DecidableEq

/-- A home directory before: its `.env`, and whether there is more in it. -/
structure Before where
  env : Option Bytes
  others : Bool

/-- The world before, where there may be a home directory. -/
def World.start (before : Option Before) : World := ⟨before.map fun b => ⟨b.env, none, b.others⟩, []⟩

/-- The content of `.env`. -/
def World.env (w : World) : Option Bytes := w.home.bind Home.env

/-- What is done to the home directory. -/
def World.modify (w : World) (f : Home → Home) : World := { w with home := w.home.map f }

/-- A disk: which operations fail, how many bytes `os.write` takes at once, and what is read of a
file that was replaced. -/
structure Disk where
  fails : Op → Bool
  accepts : ℕ
  reads : Bytes → Bytes

/-- What an operation that does not fail returns, and leaves. -/
def Op.perform (d : Disk) : (o : Op) → World → o.Value × World
  | .safe _ _, w => ((), w)
  | .statTarget, w => ((), w)
  | .isFile, w => ((), w)
  | .probeTarget, w => (w.env.isSome, w)
  | .homeExists, w => (w.home.isSome, w)
  | .targetExists, w => (w.env.isSome, w)
  | .makeHome, w => ((), { w with home := some ⟨none, none, false⟩ })
  | .readTarget, w => (w.env.getD [], w)
  | .makeBackup raw, w => ((), { w with backup := raw })
  | .hold, w => ((), w)
  | .makeTemporary, w => ((), w.modify fun h => { h with temporary := some [] })
  | .writeTemporary content, w => ((), w.modify fun h => { h with temporary := some content })
  | .replaceTarget, w => ((), w.modify fun h => { h with env := h.temporary, temporary := none })
  | .readReplaced, w => (d.reads (w.env.getD []), w)
  | .readBackup, w => (w.backup, w)
  | .openTarget, w => ((), w)
  | .openedAt, w => ((), w)
  | .truncateTarget, w => ((), w.modify fun h => { h with env := some [] })
  | .writeTarget raw, w => ((), w.modify fun h => { h with env := some (raw.take d.accepts) })
  | .syncTarget, w => ((), w)
  | .closeTarget, w => ((), w)
  | .readRestored, w => (w.env.getD [], w)
  | .targetLeft, w => (w.env.isSome, w)
  | .unlinkTarget, w => ((), w.modify fun h => { h with env := none })
  | .listHome, w => (w.home.any fun h => h.env.isSome || h.temporary.isSome || h.others, w)
  | .removeHome, w => ((), { w with home := none })
  | .release, w => ((), w)
  | .removeTemporary, w => ((), w.modify fun h => { h with temporary := none })

/-- The exceptions. -/
inductive Exc
  | os
  | runtime
  | unicode
deriving DecidableEq

abbrev Applying (α : Type) := Transaction Op.Value Exc α

/-- An operation that raises `OSError` where it fails. -/
def call (o : Op) : Applying o.Value := Transaction.call o Exc.os

/-- A check, which fails without an exception. -/
def check (o : Op) : Applying Bool := Transaction.perform o fun
  | .raised => .ok false
  | .returned _ => .ok true

/-- Some checks, in order, up to the first that fails. -/
def checkAll : List Op → Applying Bool
  | [] => return true
  | o :: rest => do
    if ← check o then checkAll rest else return false

/-- `OSError` is raised unless all of some checks succeed. -/
def require (checks : List Op) : Applying Unit := do
  if ← checkAll checks then return () else throw .os

/-- `_failure_reason`. -/
def failureReason (existed : Bool) : String := if existed then "env-replace-failed" else "env-create-failed"

/-! ### Replacing -/

/-- The inner `try`, up to what is verified. -/
def replace (replacement : Bytes) : Applying Unit := do
  let _ : Unit ← call .makeTemporary
  require [.safe .temporary 1]
  let _ : Unit ← call (.writeTemporary replacement)
  require [.safe .home 4, .safe .target 2, .safe .state 3]
  let _ : Unit ← call .replaceTarget
  let read : Bytes ← call .readReplaced
  if read = replacement then return () else throw .runtime

/-- What `_restore` does with the file open. -/
def overwrite (raw : Bytes) : Applying Unit := do
  require [.openedAt]
  let _ : Unit ← call .truncateTarget
  let _ : Unit ← call (.writeTarget raw)
  let _ : Unit ← call .syncTarget

/-- `_restore`. -/
def restore : Applying Unit := do
  let raw : Bytes ← call .readBackup
  let _ : Unit ← call .openTarget
  let written ← (overwrite raw).outcome
  let _ : Unit ← call .closeTarget
  match written with
  | .error e => throw e
  | .ok _ =>
    let again : Bytes ← call .readRestored
    if again = raw then return () else throw .os

/-- A new file is removed, if it is there and safe. -/
def removeNew : Applying Unit := do
  let left : Bool ← call .targetLeft
  if left then
    if ← check (.safe .target 3) then call .unlinkTarget else return ()
  else return ()

/-- A home directory that was made is removed, if it is safe and empty. -/
def removeMade : Applying Unit := do
  if ← check (.safe .home 6) then
    let more : Bool ← call .listHome
    if more then return () else call .removeHome
  else return ()

/-- What the rollback does to the file. -/
def putBack (existed : Bool) : Applying Unit := if existed then restore else removeNew

/-- The rollback. -/
def rollback (created existed : Bool) : Applying Unit := do
  require ([.safe .home 5, .safe .state 4] ++ if existed then [.safe .backup 1] else [])
  putBack existed
  if created then removeMade else return ()

/-- What is done while the home directory is held. -/
def whileHeld (created existed : Bool) (replacement : Bytes) : Applying (Option String) := do
  match ← (replace replacement).outcome with
  | .ok _ => return none
  | .error e =>
    match ← (rollback created existed).outcome with
    | .ok _ => return some (if e = .runtime then "env-verify-failed" else failureReason existed)
    | .error _ => return some "env-rollback-failed"

/-- A backup is made of what is there. -/
def backUp (existed : Bool) (raw : Bytes) : Applying Unit :=
  if existed then call (.makeBackup raw) else return ()

/-- The outer `try`. -/
def transact (created existed : Bool) (raw replacement : Bytes) : Applying (Option String) := do
  backUp existed raw
  require [.safe .home 3, .safe .state 2]
  let _ : Unit ← call .hold
  let reason ← whileHeld created existed replacement
  let _ : Unit ← call .release
  return reason

/-- The handler of the outer `try`. -/
def handled (existed : Bool) : Except Exc (Option String) → Applying (Option String)
  | .ok reason => return reason
  | .error .os => return some (failureReason existed)
  | .error e => throw e

/-- The outer `try` with its handler and its `finally`: a temporary file that is left is removed. -/
def replaceBlock (created existed : Bool) (raw replacement : Bytes) : Applying (Option String) := do
  let result ← (transact created existed raw replacement).outcome
  let _ ← Transaction.tried Op.removeTemporary
  handled existed result

/-! ### Applying -/

/-- The home directory is made, if there is none. -/
def makeHome (created : Bool) : Applying Unit := if created then call .makeHome else return ()

/-- What there is in `.env`. -/
def readExisting (existed : Bool) : Applying Bytes := if existed then call .readTarget else return []

/-- What was there before, or nothing where the home directory is not safe. -/
def prior (created existed : Bool) : Applying (Option Bytes) := do
  makeHome created
  if ← check (.safe .home 2) then
    let raw ← readExisting existed
    return some raw
  else return none

/-- There is something that is no safe file in the place of `.env`. -/
def targetUnsafe : Applying Bool := do
  let found : Bool ← call .probeTarget
  if found then
    if ← check (.safe .target 1) then
      -- `is_file` may raise, and nothing handles that
      let _ : Unit ← call .statTarget
      let regular ← check .isFile
      return !regular
    else return true
  else return false

/-- What is rewritten takes the place of what there is, unless it is refused. -/
def placed (created existed : Bool) (raw : Bytes) : Except Failure Bytes → Applying (Option String)
  | .error (.refused reason) => return some reason
  | .error .raised => throw .unicode
  | .ok replacement => replaceBlock created existed raw replacement

/-- `apply`, from the look at what there is on. -/
def applyTo (created existed : Bool) (invocation : Text) : Applying (Option String) := do
  match ← (prior created existed).outcome with
  | .error .os => return some "env-target-unsafe"
  | .error e => throw e
  | .ok none => return some "env-home-unsafe"
  | .ok (some raw) => placed created existed raw (rewrite raw invocation)

/-- `apply`: the reason of the refusal, or none. -/
def apply (invocation : Text) (consent : Bool) : Applying (Option String) := do
  if consent then
    if ← check (.safe .home 1) then
      if ← check (.safe .state 1) then
        if ← targetUnsafe then return some "env-target-unsafe"
        else
          let home : Bool ← call .homeExists
          let existed : Bool ← call .targetExists
          applyTo (!home) existed invocation
      else return some "env-state-unsafe"
    else return some "env-home-unsafe"
  else return some "env-consent-required"

/-- A run of `apply` on a disk. -/
def run (d : Disk) (invocation : Text) (consent : Bool) (w : World) : Except Exc (Option String) × World :=
  Faults.alone (Op.perform d) d.fails (apply invocation consent) w

end EnvBlock

end YasbLimitora
