import Mathlib
import YasbLimitora.Isolation.WindowsJob
import YasbLimitora.Lib.Faults

/-!
# The helper process and its job

`_HelperProcessResources` of `codex_process_resources.py`: it owns a process
(`_PopenProcessOwner`) and, once attached, the job that the process runs in (`_JobOwner` of
`codex_job_resources.py`, over the boundary of `YasbLimitora.Isolation`). To be closed it
closes the job first, and then terminates, awaits and releases the process.

The owners are one record, which the programs read and change; outside it are the native
calls on the job and the operations on the process, each of which may raise.

The owner of the job and the owner of the process each have a state of their own, and each method
first looks at that. A method that raises in the middle leaves the state as it was at that point,
and what comes after is a matter of the next call.
-/

namespace YasbLimitora

namespace Helper

open Isolation (Boundary JobOp JobErrorCode)

/-! ### Owners -/

inductive OwnerState
  | opened
  | assigned
  | closing
  | broken
  | closed
deriving DecidableEq

structure JobOwner where
  boundary : Boundary
  state : OwnerState
deriving DecidableEq

inductive PopenState
  | registered
  | adapted
  | closing
  | broken
  | closed
deriving DecidableEq

structure PopenProcessOwner where
  popen : Option ℕ
  nativeHandle : Option ℕ
  state : PopenState
deriving DecidableEq

structure HelperProcessResources where
  popen : PopenProcessOwner
  job : Option JobOwner
  state : OwnerState
  jobClosed : Bool
deriving DecidableEq

inductive ResourceError
  | adaptation
  | popenCleanup
  | popenTimeout
  | jobAssignment
  | jobCleanup
  | jobTimeout
  | ownership
deriving DecidableEq

/-! ### Operations -/

inductive HelperOp
  | job (o : JobOp)
  /-- The native handle of a process, where it has one. -/
  | nativeHandle (popen : ℕ)
  | poll (popen : ℕ)
  | terminate (popen : ℕ)
  | wait (popen : ℕ)
  | release (handle : ℕ)
  | cleanupNs
  | read
  | change (f : HelperProcessResources → HelperProcessResources)

def HelperOp.Resp : HelperOp → Type
  | .job o => o.Resp
  | .nativeHandle _ => Answer (Option ℕ)
  | .poll _ => Answer (Option ℤ)
  | .cleanupNs => ℤ
  | .read => HelperProcessResources
  | .change _ => Unit
  | _ => Answer Unit

abbrev Helping (α : Type) := Prog HelperOp HelperOp.Resp α

/-- The native calls of a boundary. -/
def liftJob {α : Type} (p : Isolation.Job α) : Helping α := p.translate HelperOp.job fun _ r => r

def read : Helping HelperProcessResources := Prog.perform HelperOp.read

def change (f : HelperProcessResources → HelperProcessResources) : Helping Unit :=
  Prog.perform (HelperOp.change f)

def setJob (job : JobOwner) : Helping Unit := change fun r => { r with job := some job }

def setPopen (popen : PopenProcessOwner) : Helping Unit := change fun r => { r with popen := popen }

def setState (state : OwnerState) : Helping Unit := change fun r => { r with state := state }

/-! ### The job -/

namespace JobOwner

/-- `_JobOwner`, of a boundary that was just made. -/
def ofBoundary (boundary : Boundary) : JobOwner := ⟨boundary, .opened⟩

/-- The state of an owner whose boundary raised. -/
def failedState (boundary : Boundary) : OwnerState :=
  if boundary.state = .closed then .closed else .broken

/-- `_JobOwner.assign_borrowed_handle`. -/
def assignBorrowedHandle (job : JobOwner) (handle : ℕ) (allowNested : Bool) :
    Helping (Except ResourceError Unit) :=
  if job.state ≠ .opened then return .error .ownership
  else do
    match ← liftJob (job.boundary.assignBorrowedHandle handle allowNested) with
    | (.error _, boundary) =>
      setJob ⟨boundary, failedState boundary⟩
      return .error .jobAssignment
    | (.ok (), boundary) =>
      setJob ⟨boundary, .assigned⟩
      return .ok ()

/-- An owner that is not closed is closed by closing its boundary. -/
def closeOpen (job : JobOwner) (closeBoundary : Isolation.Job (Except JobErrorCode Unit × Boundary)) :
    Helping (Except ResourceError Unit) := do
  setJob { job with state := .closing }
  match ← liftJob closeBoundary with
  | (.error error, boundary) =>
    setJob ⟨boundary, failedState boundary⟩
    return .error (if error = .timeout then .jobTimeout else .jobCleanup)
  | (.ok (), boundary) =>
    setJob ⟨boundary, .closed⟩
    return .ok ()

/-- Both ways to close an owner. -/
def closing (job : JobOwner) (closeBoundary : Isolation.Job (Except JobErrorCode Unit × Boundary)) :
    Helping (Except ResourceError Unit) :=
  match job.state with
  | .closed => return .ok ()
  | .closing => return .error .ownership
  | _ => job.closeOpen closeBoundary

/-- `_JobOwner.close`. -/
def close (job : JobOwner) (validTimeout : Bool) : Helping (Except ResourceError Unit) :=
  job.closing (job.boundary.close validTimeout)

/-- `_JobOwner.close_with_deadline`. -/
def closeWithDeadline (job : JobOwner) : Helping (Except ResourceError Unit) :=
  job.closing job.boundary.closeWithDeadline

end JobOwner

/-! ### The process -/

namespace PopenProcessOwner

/-- `register`. -/
def register (popen : ℕ) : PopenProcessOwner := ⟨some popen, none, .registered⟩

/-- `_compat_native_handle`. -/
def compatNativeHandle (popen : Option ℕ) : Helping (Option ℕ) :=
  match popen with
  | none => return none
  | some popen => do
    let answer : Answer (Option ℕ) ← Prog.perform (HelperOp.nativeHandle popen)
    match answer with
    | .raised => return none
    | .returned handle => return handle.filter (· ≠ Isolation.INVALID_HANDLE)

/-- `adapt_native_handle`. -/
def adaptNativeHandle : Helping (Except ResourceError Unit) := do
  let r ← read
  match r.popen.state with
  | .adapted => return .ok ()
  | .registered => do
    match ← compatNativeHandle r.popen.popen with
    | none => return .error .adaptation
    | some handle =>
      setPopen { r.popen with nativeHandle := some handle, state := .adapted }
      return .ok ()
  | _ => return .error .ownership

/-- `_release_handle`: it did not raise. -/
def releaseHandle : Option ℕ → Helping Bool
  | none => return true
  | some handle => do
    let answer : Answer Unit ← Prog.perform (HelperOp.release handle)
    match answer with
    | .raised => return false
    | .returned () => return true

/-- There is time to wait for the process, as far as that is asked. -/
def timeToWait (deadline : Bool) : Helping Bool := do
  if deadline then
    let remaining : ℤ ← Prog.perform HelperOp.cleanupNs
    return 0 < remaining
  else return true

/-- The body of the `try` of both ways to close: a process that runs is terminated and awaited,
and its handle released. It did not raise. -/
def reap (owner : PopenProcessOwner) (deadline : Bool) : Helping Bool :=
  match owner.popen with
  | none => return false
  | some popen => do
    let polled : Answer (Option ℤ) ← Prog.perform (HelperOp.poll popen)
    match polled with
    | .raised => return false
    | .returned (some _) => releaseHandle owner.nativeHandle
    | .returned none => do
      let terminated : Answer Unit ← Prog.perform (HelperOp.terminate popen)
      match terminated with
      | .raised => return false
      | .returned () => do
        if ← timeToWait deadline then
          let waited : Answer Unit ← Prog.perform (HelperOp.wait popen)
          match waited with
          | .raised => return false
          | .returned () => releaseHandle owner.nativeHandle
        else return false

/-- The rest of both ways to close. -/
def closing (owner : PopenProcessOwner) (deadline : Bool) : Helping (Except ResourceError Unit) := do
  setPopen { owner with state := .closing }
  if ← owner.reap deadline then
    setPopen ⟨none, none, .closed⟩
    return .ok ()
  else
    setPopen { owner with state := .broken }
    return .error .popenCleanup

/-- What `close` does with an owner that is not closed. -/
def closeOpen (owner : PopenProcessOwner) (validTimeout : Bool) : Helping (Except ResourceError Unit) := do
  match ← owner.closing false with
  | .error error => return .error error
  | .ok () => return if validTimeout then .ok () else .error .popenTimeout

/-- `_PopenProcessOwner.close`. -/
def close (validTimeout : Bool) : Helping (Except ResourceError Unit) := do
  let r ← read
  match r.popen.state with
  | .closed => return .ok ()
  | .closing => return .error .ownership
  | _ => r.popen.closeOpen validTimeout

/-- `_PopenProcessOwner.close_with_deadline`. -/
def closeWithDeadline : Helping (Except ResourceError Unit) := do
  let r ← read
  match r.popen.state with
  | .closed => return .ok ()
  | _ => do
    let remaining : ℤ ← Prog.perform HelperOp.cleanupNs
    if remaining ≤ 0 then return .error .popenTimeout
    else r.popen.closing true

end PopenProcessOwner

/-! ### Both -/

namespace HelperProcessResources

/-- `_HelperProcessResources` of a process that is registered. -/
def ofPopen (popen : ℕ) : HelperProcessResources := ⟨.register popen, none, .opened, false⟩

/-- `attach_job`, of a job that was just made. -/
def attachJob (boundary : Boundary) (allowNested : Bool) : Helping (Except ResourceError Unit) := do
  let r ← read
  if r.state ≠ .opened ∨ r.job ≠ none ∨ r.popen.state ≠ .adapted then return .error .ownership
  else do
    setJob (.ofBoundary boundary)
    match ← (JobOwner.ofBoundary boundary).assignBorrowedHandle (r.popen.nativeHandle.getD 0) allowNested with
    | .error error =>
      setState .broken
      return .error error
    | .ok () =>
      setState .assigned
      return .ok ()

/-- The job is closed, if there is one that is not. -/
def closeJob (r : HelperProcessResources) (closeOwner : JobOwner → Helping (Except ResourceError Unit)) :
    Helping (Except ResourceError Unit) :=
  match r.job, r.jobClosed with
  | some job, false => do
    match ← closeOwner job with
    | .error error => return .error error
    | .ok () =>
      change fun r => { r with jobClosed := true }
      return .ok ()
  | _, _ => return .ok ()

/-- The process is closed, and all with it. -/
def closeProcess (closePopen : Helping (Except ResourceError Unit)) : Helping (Except ResourceError Unit) := do
  match ← closePopen with
  | .error error =>
    let r ← read
    setState (if r.popen.state = .closed then .closed else .broken)
    return .error error
  | .ok () =>
    setState .closed
    return .ok ()

/-- What is not closed is closed: the job first, and then the process. -/
def closeOpen (r : HelperProcessResources) (closeOwner : JobOwner → Helping (Except ResourceError Unit))
    (closePopen : Helping (Except ResourceError Unit)) : Helping (Except ResourceError Unit) := do
  setState .closing
  match ← r.closeJob closeOwner with
  | .error error =>
    setState .broken
    return .error error
  | .ok () => closeProcess closePopen

/-- Both ways to close the resources. -/
def closing (closeOwner : JobOwner → Helping (Except ResourceError Unit))
    (closePopen : Helping (Except ResourceError Unit)) : Helping (Except ResourceError Unit) := do
  let r ← read
  match r.state with
  | .closed => return .ok ()
  | .closing => return .error .ownership
  | _ => r.closeOpen closeOwner closePopen

/-- `_HelperProcessResources.close`. -/
def close (validTimeout : Bool) : Helping (Except ResourceError Unit) :=
  closing (JobOwner.close · validTimeout) (PopenProcessOwner.close validTimeout)

/-- `_HelperProcessResources.close_with_deadline`. -/
def closeWithDeadline : Helping (Except ResourceError Unit) :=
  closing JobOwner.closeWithDeadline PopenProcessOwner.closeWithDeadline

end HelperProcessResources

end Helper

end YasbLimitora
