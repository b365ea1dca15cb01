import Mathlib
import YasbLimitora.PathCleanup.Registry
import YasbLimitora.SetupAssist.Request

/-!
# Batches of operations

`setup_assist._execute` with the operations on the user PATH and on the state directory, as
programs over the calls of the registry and over `delete_directory`. What the other
operations do is about other things, so that each of them is one call here; what these calls
come to is given by a `YasbLimitora.SetupAssist.Disk`. The disk on which they are the operations
that the source has is `YasbLimitora.SetupAssist.Surroundings.disk`.

A path operation that is asked for is run on its own, unless it is the removal of the
route and the cleanup of the state is asked for right after it: these two are then done
together (`removePathAndCleanupState`), so that the record of the route is there for both.
-/

namespace YasbLimitora

namespace SetupAssist

open UserPath

/-- What the operations elsewhere, and the deletion of the state directory, make of a disk. -/
structure Disk (σ : Type) where
  /-- An operation elsewhere: an exception of it, or its refusal if it is refused, and what it
  leaves. -/
  perform : Operation → Consent → σ → Except Raised (Option String) × σ
  /-- `delete_directory` of the state directory: an exception that is no `OSError`, or whether it
  was deleted, and what is left. -/
  deleteDirectory : σ → Except Raised Bool × σ

/-- What the operations of a batch act on. -/
structure Machine (σ : Type) where
  registry : Registry
  disk : σ

inductive Call
  | registry (o : UserPath.Op)
  | deleteDirectory
  | elsewhere (o : Operation) (consent : Consent)

/-- What a call returns, if it does not raise. -/
def Call.Value : Call → Type
  | .registry o => o.Value
  | .deleteDirectory => Except Raised Bool
  | .elsewhere _ _ => Except Raised (Option String)

/-- What a call that does not raise returns, and leaves. -/
def Disk.act {σ : Type} (disk : Disk σ) : (c : Call) → Machine σ → c.Value × Machine σ
  | .registry o, m => ((o.perform m.registry).1, { m with registry := (o.perform m.registry).2 })
  | .deleteDirectory, m =>
    ((disk.deleteDirectory m.disk).1, { m with disk := (disk.deleteDirectory m.disk).2 })
  | .elsewhere o consent, m =>
    ((disk.perform o consent m.disk).1, { m with disk := (disk.perform o consent m.disk).2 })

/-- An operation that was asked for, and why it was refused if it was. -/
abbrev Record := Operation × Option String

abbrev Executing (α : Type) := Transaction Call.Value Raised α

/-! ### The operations -/

def readRecord : Executing (Option Text) :=
  Transaction.call (Call.registry .readRecordedElement) Raised.osError

def readPath : Executing (Option RegValue) :=
  Transaction.call (Call.registry .readUserPath) Raised.osError

def changePath (expected changed : RegValue) : Executing Bool :=
  Transaction.call (Call.registry (.compareAndWriteUserPath (some expected) changed .changing))
    Raised.osError

def notify : Executing Unit :=
  Transaction.call (Call.registry .notifyEnvironmentChanged) Raised.osError

/-- A PATH is put back, or it is not. -/
def restorePath (changed restored : RegValue) : Executing Bool := do
  match ← Transaction.tried (Call.registry
    (.compareAndWriteUserPath (some changed) restored (.restoring (some restored)))) with
  | .raised => return false
  | .returned done => return done

/-- `delete_directory`, of which `OSError` is caught. -/
def deleteState : Executing Bool := do
  let answer : Answer (Except Raised Bool) ← Transaction.tried Call.deleteDirectory
  match answer with
  | .raised => return false
  | .returned (.error e) => throw e
  | .returned (.ok deleted) => return deleted

/-- The end of a cleanup: the state was deleted, and its record goes. -/
def clearRecord : Executing Outcome := do
  match ← Transaction.tried (Call.registry .clearRecordedElement) with
  | .raised => return ⟨false, some "state-bookkeeping-failed"⟩
  | .returned _ => return ⟨true, none⟩

/-- `cleanup_literal_state`, where the state directory has an absolute path or not. -/
def cleanupLiteralState (absolute : Bool) (expected : Option Text) : Executing Outcome := do
  if !absolute then return ⟨false, some "state-path-unsafe"⟩
  else
    let recorded ← readRecord
    if expected.isSome ∧ recorded ≠ expected then return ⟨false, some "path-ownership-changed"⟩
    else match recorded.bind owned with
      | none => return ⟨false, some "state-record-missing"⟩
      | some o =>
        if (split o.path).getLast? ≠ some o.element then
          return ⟨false, some "path-ownership-changed"⟩
        else
          let current ← readPath
          if current ≠ some ⟨o.path, o.type⟩ then return ⟨false, some "path-ownership-changed"⟩
          else
            let recordedAgain ← readRecord
            if recordedAgain ≠ recorded then return ⟨false, some "path-ownership-changed"⟩
            else
              let currentAgain ← readPath
              if currentAgain ≠ some ⟨o.path, o.type⟩ then
                return ⟨false, some "path-ownership-changed"⟩
              else if ← deleteState then clearRecord
              else return ⟨false, some "state-delete-failed"⟩

/-- What follows the removal of the route in `_remove_path_and_cleanup_state`: the state is
deleted, or the route is put back. -/
def deleteOrRestore (changed restored : RegValue) : Executing (Outcome × Outcome) := do
  if ← deleteState then
    let outcome ← clearRecord
    return (⟨true, none⟩, outcome)
  else
    if ← restorePath changed restored then
      notify
      return (⟨false, some "state-delete-failed"⟩, ⟨false, some "state-delete-failed"⟩)
    else return (⟨true, none⟩, ⟨false, some "path-restore-failed"⟩)

/-- `_remove_path_and_cleanup_state` from a PATH that is the one of the record. -/
def removeAndDelete (recorded : Option Text) (o : Owned) : Executing (Outcome × Outcome) := do
  let changed : RegValue := ⟨join (split o.path).dropLast, o.type⟩
  if ← changePath ⟨o.path, o.type⟩ changed then
    notify
    let recordedAgain ← readRecord
    if recordedAgain ≠ recorded then
      return (⟨true, none⟩, ⟨false, some "path-ownership-changed"⟩)
    else
      let currentAgain ← readPath
      if currentAgain ≠ some changed then
        return (⟨true, none⟩, ⟨false, some "path-ownership-changed"⟩)
      else deleteOrRestore changed ⟨o.path, o.type⟩
  else return (⟨false, some "path-concurrency-unsafe"⟩, ⟨false, some "path-remove-failed"⟩)

/-- `_remove_path_and_cleanup_state`. -/
def removePathAndCleanupState (absolute : Bool) : Executing (Outcome × Outcome) := do
  if !absolute then
    return (⟨false, some "path-transaction-aborted"⟩, ⟨false, some "state-path-unsafe"⟩)
  else
    let recorded ← readRecord
    match recorded.bind owned with
    | none => return (⟨false, none⟩, ⟨false, some "state-record-missing"⟩)
    | some o =>
      if (split o.path).getLast? ≠ some o.element then
        return (⟨false, some "path-ownership-changed"⟩, ⟨false, some "path-remove-failed"⟩)
      else
        let current ← readPath
        if current ≠ some ⟨o.path, o.type⟩ then
          if (current.elim [] fun v => split v.value).contains o.element then
            return (⟨false, some "path-ownership-changed"⟩, ⟨false, some "path-remove-failed"⟩)
          else
            let state ← cleanupLiteralState absolute recorded
            return (⟨false, none⟩, state)
        else removeAndDelete recorded o

/-! ### The batch -/

/-- A path operation on its own: an exception of a registry call refuses it, any other ends
the batch. -/
def pathOperation (o : Operation) (t : Transacting Outcome) : Executing Record := do
  match ← (Transaction.lift Call.registry t).outcome with
  | .ok outcome => return (o, outcome.reason)
  | .error .registryIOError => return (o, some "path-access-failed")
  | .error .osError => throw .osError

/-- An operation elsewhere: an exception of it ends the batch. -/
def elsewhere (o : Operation) (consent : Consent) : Executing Record := do
  let result : Except Raised (Option String) ← Transaction.call (Call.elsewhere o consent) Raised.osError
  match result with
  | .error e => throw e
  | .ok reason => return (o, reason)

variable (install : Text) (absolute : Bool)

/-- An operation on its own. -/
def executeOne (o : Operation) (consent : Consent) : Executing Record :=
  match o, consent with
  | .pathAdd, .flag correctionConsent =>
    pathOperation .pathAdd (appendUserPath install correctionConsent)
  | .pathAdd, _ => pathOperation .pathAdd (appendUserPath install false)
  | .pathRemove, _ => pathOperation .pathRemove removeRecordedUserPath
  | .stateCleanup, .yes => do
    let outcome ← cleanupLiteralState absolute none
    return (.stateCleanup,
      if outcome.changed then none else some (outcome.reason.getD "state-unchanged"))
  | .stateCleanup, _ => return (.stateCleanup, some "state-consent-required")
  | o, consent => elsewhere o consent

/-- `_execute`. -/
def execute : List (Operation × Consent) → Executing (List Record)
  | [] => return []
  | (.pathRemove, _) :: (.stateCleanup, .yes) :: rest => do
    let outcomes ← removePathAndCleanupState absolute
    let records ← execute rest
    return (.pathRemove, outcomes.1.reason) :: (.stateCleanup, outcomes.2.reason) :: records
  | (o, consent) :: rest => do
    let record ← executeOne install absolute o consent
    let records ← execute rest
    return record :: records

/-- The run of a batch in which any call may raise. -/
def Disk.run {σ : Type} (disk : Disk σ) (raises : ℕ → Call → Bool)
    (names : List (Operation × Consent)) (m : Machine σ) :
    Ran Call (fun c => Answer c.Value) (Machine σ) (Except Raised (List Record)) :=
  Prog.run (Faults.faulty disk.act (fun _ m => m) raises) 0 (execute install absolute names).run m

end SetupAssist

end YasbLimitora
