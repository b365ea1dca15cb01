import Mathlib
import YasbLimitora.Lib.Schedule

/-!
# The job that a worker runs in

`WindowsJobBoundary` of `isolation/windows_job.py`: a boundary owns a job object, and a
process that it opened or that was lent to it. To be closed it terminates the job, waits for
the process and for the job to have no process left, and then closes the handles it owns.

A boundary is passed from step to step; what is outside it are the native calls, each of
which may raise, and the clock. A loop that ends with the deadline is given the rounds that
there are before it.

The source keeps for each handle whether it is owned or borrowed, and whether the process was
assigned to the job; the boundary is that record and nothing more. The calls may be made in any
order and as often as one likes, so that a close may find a boundary that has been closed in part
before. It then goes on with what is left.
-/

namespace YasbLimitora

namespace Isolation

inductive JobErrorCode
  | handleFailed
  | assignmentFailed
  | nestedJob
  | internalError
  | invalidState
  | timeout
deriving DecidableEq

def CLEANUP_ERROR : JobErrorCode := .internalError

def WAIT_OBJECT_0 : ℕ := 0

def WAIT_TIMEOUT : ℕ := 0x102

def WAIT_FAILED : ℕ := 0xFFFFFFFF

def MIN_ACTIVE_PROCESSES : ℤ := 1

def INVALID_HANDLE : ℕ := 2 ^ 64 - 1

inductive JobState
  | created
  | assigned
  | authorized
  | closed
  | broken
deriving DecidableEq

inductive Slot
  | process
  | job
deriving DecidableEq

/-! ### Native calls -/

/-- What a native call comes to: an exception, by the code that `_call` makes of it, or a
result. -/
inductive Result (α : Type)
  | raised (code : JobErrorCode)
  | returned (a : α)

inductive JobOp
  | openProcess (pid : ℕ)
  /-- In a job, or in any job. -/
  | isProcessInJob (process : ℕ) (job : Option ℕ)
  | assign (job process : ℕ)
  | queryActive (job : ℕ)
  | terminate (job : ℕ)
  | terminateProcess (process : ℕ)
  | wait (process : ℕ)
  | close (slot : Slot) (handle : ℕ)
  /-- The rounds that there are before the deadline. -/
  | rounds
  /-- There is time left in the middle of a round. -/
  | inTime
  | cleanupNs
deriving DecidableEq

def JobOp.Resp : JobOp → Type
  | .openProcess _ => Result (Option ℕ)
  | .queryActive _ => Result ℤ
  | .wait _ => Result ℕ
  | .rounds => ℕ
  | .inTime => Bool
  | .cleanupNs => ℤ
  | _ => Result Bool

abbrev Job (α : Type) := Prog JobOp JobOp.Resp α

def call (o : JobOp) : Job o.Resp := Prog.perform o

/-- `_safe`, of what a call comes to. -/
def safe : Result Bool → Bool
  | .raised _ => false
  | .returned b => b

/-! ### The boundary -/

structure Boundary where
  job : Option ℕ
  process : Option ℕ
  assigned : Bool
  borrowedProcess : Bool
  state : JobState
deriving DecidableEq

namespace Boundary

/-- A boundary that owns a job. -/
def ofJob (job : ℕ) : Boundary := ⟨some job, none, false, false, .created⟩

def handle (b : Boundary) : Slot → Option ℕ
  | .process => b.process
  | .job => b.job

def clear (b : Boundary) : Slot → Boundary
  | .process => { b with process := none }
  | .job => { b with job := none }

/-- One round of `_close_handles`. -/
def closeSlot (b : Boundary) (slot : Slot) (ready : Bool) : Job (Bool × Boundary) :=
  match b.handle slot with
  | none => return (true, b)
  | some handle =>
    if !ready then return (true, b)
    else if slot = .process ∧ b.borrowedProcess then return (true, b)
    else do
      let closed : Result Bool ← call (.close slot handle)
      return if safe closed then (true, b.clear slot) else (false, b)

/-- `_close_handles`. A handle that was lent is given back with the job. -/
def closeHandles (b : Boundary) (processReady jobReady : Bool) : Job (Bool × Boundary) := do
  let (processOk, b) ← b.closeSlot .process processReady
  let (jobOk, b) ← b.closeSlot .job jobReady
  let b := if b.borrowedProcess ∧ processReady ∧ jobReady ∧ b.job = none then
    { b with process := none, borrowedProcess := false } else b
  return ((processReady && jobReady) && processOk && jobOk, b)

/-! ### Cleanup -/

/-- What a cleanup has come to. -/
structure Progress where
  ok : Bool
  processWaited : Bool
  waitFailed : Bool
  activeZero : Bool
  timedOut : Bool

/-- The wait for the process in one round. That a wait failed is noted by `_cleanup`, and not
by `close_with_deadline`. -/
def waitProcess (b : Boundary) (assigned terminateUnassigned notesFailure : Bool) (p : Progress) :
    Job Progress :=
  match b.process with
  | none => return p
  | some process =>
    if (!b.borrowedProcess || assigned) && (assigned || terminateUnassigned) then do
      let result : Result ℕ ← call (.wait process)
      match result with
      | .raised _ => return { p with ok := false, processWaited := false, waitFailed := p.waitFailed || notesFailure }
      | .returned code =>
        if code = WAIT_OBJECT_0 then return { p with processWaited := true }
        else if code = WAIT_TIMEOUT then return { p with processWaited := false }
        else return { p with ok := false, processWaited := false, waitFailed := p.waitFailed || notesFailure }
    else return p

/-- The loop of a cleanup. -/
def awaitEmpty (b : Boundary) (assigned terminateUnassigned notesFailure : Bool) :
    ℕ → Progress → Job Progress
  | rounds, p =>
    if b.process = none ∧ b.job = none then return p
    else match rounds with
    | 0 => return { p with timedOut := true }
    | rounds + 1 => do
      let p ← b.waitProcess assigned terminateUnassigned notesFailure p
      match b.job with
      | none =>
        if p.processWaited || p.waitFailed then return p
        else b.awaitEmpty assigned terminateUnassigned notesFailure rounds p
      | some job =>
        if !assigned then
          if p.processWaited || p.waitFailed then return p
          else b.awaitEmpty assigned terminateUnassigned notesFailure rounds p
        else
          let inTime : Bool ← call .inTime
          if !inTime then return { p with timedOut := true }
          else
            let active : Result ℤ ← call (.queryActive job)
            match active with
            | .raised _ => return { p with ok := false }
            | .returned active =>
              if active = 0 ∧ p.processWaited then return { p with activeZero := true }
              else if p.waitFailed then return p
              else if active < 0 then return { p with ok := false }
              else b.awaitEmpty assigned terminateUnassigned notesFailure rounds p

/-- A process that was not assigned is terminated by itself, if it is the boundary's own. -/
def terminateUnassignedProcess (b : Boundary) (assigned terminateUnassigned : Bool) : Job Bool :=
  match b.process with
  | none => return true
  | some process =>
    if !assigned && !b.borrowedProcess && terminateUnassigned then do
      let terminated : Result Bool ← call (.terminateProcess process)
      return safe terminated
    else return true

def terminateJob (b : Boundary) : Job Bool :=
  match b.job with
  | none => return true
  | some job => do
    let terminated : Result Bool ← call (.terminate job)
    return safe terminated

/-- The whole of a cleanup: whether all went well and was closed, and whether the time ran
out. -/
def cleanupWith (notesFailure : Bool) (b : Boundary) (assigned timedOut terminateUnassigned : Bool) :
    Job ((Bool × Bool) × Boundary) := do
  let waited := b.process = none ∨ (b.borrowedProcess ∧ !assigned) ∨ (!assigned ∧ !terminateUnassigned)
  let processTerminated ← b.terminateUnassignedProcess assigned terminateUnassigned
  let jobTerminated ← b.terminateJob
  let rounds : ℕ ← call .rounds
  let p ← b.awaitEmpty assigned terminateUnassigned notesFailure rounds
    ⟨processTerminated && jobTerminated, waited, false, b.job = none ∨ !assigned, timedOut⟩
  let (closed, b) ← b.closeHandles (processTerminated && p.processWaited) (jobTerminated && p.activeZero)
  return ((p.ok && closed, p.timedOut), b)

/-- `_cleanup`. -/
def cleanup (b : Boundary) (assigned timedOut terminateUnassigned : Bool) : Job ((Bool × Bool) × Boundary) :=
  cleanupWith true b assigned timedOut terminateUnassigned

/-! ### Calls -/

/-- What is left of an assignment when the process has its place in the boundary: whether it
was assigned, and the error that ended it. -/
def assignHandle (b : Boundary) (job process : ℕ) (allowNested : Bool) :
    Job (Except JobErrorCode Unit × Bool × Boundary) := do
  let nested : Result Bool ← (if allowNested then return .returned false
    else call (.isProcessInJob process none))
  match nested with
  | .raised code => return (.error code, false, b)
  | .returned true => return (.error .nestedJob, false, b)
  | .returned false =>
    let assigned : Result Bool ← call (.assign job process)
    match assigned with
    | .raised code => return (.error code, false, b)
    | .returned false => return (.error .assignmentFailed, false, { b with assigned := false })
    | .returned true =>
      let b := { b with assigned := true }
      let inJob : Result Bool ← call (.isProcessInJob process (some job))
      match inJob with
      | .raised code => return (.error code, true, b)
      | .returned false => return (.error .assignmentFailed, true, b)
      | .returned true =>
        let active : Result ℤ ← call (.queryActive job)
        match active with
        | .raised code => return (.error code, true, b)
        | .returned active =>
          if active < MIN_ACTIVE_PROCESSES then return (.error .assignmentFailed, true, b)
          else return (.ok (), true, { b with state := .assigned })

/-- The `except` of an assignment. -/
def assignmentFailed (b : Boundary) (error : JobErrorCode) (assigned terminateUnassigned : Bool) :
    Job (Except JobErrorCode Unit × Boundary) := do
  let ((ok, _), b) ← b.cleanup assigned true terminateUnassigned
  if ok then return (.error error, { b with state := .closed })
  else return (.error CLEANUP_ERROR, { b with state := .broken })

def assigning (b : Boundary) (job process : ℕ) (allowNested terminateUnassigned : Bool) :
    Job (Except JobErrorCode Unit × Boundary) := do
  match ← b.assignHandle job process allowNested with
  | (.ok (), _, b) => return (.ok (), b)
  | (.error error, assigned, b) => b.assignmentFailed error assigned terminateUnassigned

/-- `assign_process`. -/
def assignProcess (b : Boundary) (pid : ℕ) (allowNested : Bool) : Job (Except JobErrorCode Unit × Boundary) :=
  match b.job with
  | none => return (.error .invalidState, b)
  | some job =>
    if b.state ≠ .created ∨ b.process ≠ none then return (.error .invalidState, b)
    else do
      let process : Result (Option ℕ) ← call (.openProcess pid)
      match process with
      | .raised code => b.assignmentFailed code false false
      | .returned none => b.assignmentFailed .handleFailed false false
      | .returned (some 0) => ({ b with process := some 0 } : Boundary).assignmentFailed .handleFailed false false
      | .returned (some process) => ({ b with process := some process } : Boundary).assigning job process allowNested false

/-- `assign_borrowed_handle`. -/
def assignBorrowedHandle (b : Boundary) (handle : ℕ) (allowNested : Bool) :
    Job (Except JobErrorCode Unit × Boundary) :=
  match b.job with
  | none => return (.error .invalidState, b)
  | some job =>
    if b.state ≠ .created ∨ b.process ≠ none then return (.error .invalidState, b)
    else if handle = 0 ∨ handle = INVALID_HANDLE then return (.error .handleFailed, b)
    else ({ b with process := some handle, borrowedProcess := true } : Boundary).assigning job handle allowNested true

/-- `authorize`. -/
def authorize (b : Boundary) : Except JobErrorCode Unit × Boundary :=
  if b.state ≠ .assigned then (.error .invalidState, b) else (.ok (), { b with state := .authorized })

/-- `close`. A timeout that is none makes the time short, and the call fail. -/
def close (b : Boundary) (validTimeout : Bool) : Job (Except JobErrorCode Unit × Boundary) :=
  if b.state = .closed then return (.ok (), b)
  else do
    let ((ok, timedOut), b) ← b.cleanup b.assigned (!validTimeout) true
    return (if timedOut then .error .timeout else if !ok then .error CLEANUP_ERROR else .ok (),
      { b with state := if ok then .closed else .broken })

/-- `close_with_deadline`. -/
def closeWithDeadline (b : Boundary) : Job (Except JobErrorCode Unit × Boundary) :=
  if b.state = .closed then return (.ok (), b)
  else do
    let cleanupNs : ℤ ← call .cleanupNs
    if cleanupNs ≤ 0 then return (.error .timeout, b)
    else
      let ((ok, timedOut), b) ← cleanupWith false b b.assigned false true
      if timedOut || !ok then
        return (.error (if timedOut then .timeout else CLEANUP_ERROR), { b with state := .broken })
      else return (.ok (), { b with state := .closed })

end Boundary

end Isolation

end YasbLimitora
