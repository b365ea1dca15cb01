import Mathlib
import YasbLimitora.Lib.Encoding
import YasbLimitora.Lib.Faults
import YasbLimitora.Lib.Interaction
import YasbLimitora.Lib.JsonText
import YasbLimitora.Model.Views

/-!
# The executor of helpers

`CodexHelperExecutor` of `codex_helper.py`: its four calls as programs over the sections that
hold its lock, each of which is one operation, and the operations on supervisors, which may
take long and may raise. Any number of threads make calls. A supervisor that could not be
closed is kept, to be closed by a later call.

An operation on a supervisor returns or raises an `Exception`; what it is to close one begins
and ends in two operations, so that the steps of others come between.

A section under the lock is one operation since nobody else can see what is between its first and
its last statement. Between two sections everything may change that the lock guards, and the program
of a call decides by what the next section returns. The deadline of a call is not a part of the
state: how long a wait takes, and that it is given up, are answers of the operations.
-/

namespace YasbLimitora

namespace Executor

open Json

def CONTROL_CAPACITY : ℕ := 4096

def MAX_REQUEST : ℕ := CONTROL_CAPACITY

def NONCE_LIMIT : ℕ := 128

/-! ### What the lock guards -/

/-- The fields of an executor. Supervisors are told apart by the order of their creation. -/
structure Lifecycle where
  pending : Option ℕ
  active : Bool
  retrying : Bool
deriving DecidableEq

/-- What a retry finds. -/
inductive Found
  | nothing
  | busy
  | owner (supervisor : ℕ)
deriving DecidableEq

/-- The sections that hold the lock. -/
inductive Section
  | enterRetry
  | leaveRetry
  | endRetry (supervisor : ℕ)
  | enterRun
  | retain (supervisor : ℕ)
  | endRun
deriving DecidableEq

@[reducible] def Section.Resp : Section → Type
  | .enterRetry => Found
  | .endRetry _ | .enterRun => Bool
  | _ => Unit

/-- What a section answers, and leaves. -/
def Section.run : (x : Section) → Lifecycle → x.Resp × Lifecycle
  | .enterRetry, l =>
    match l.pending with
    | none => (.nothing, l)
    | some s => if l.active ∨ l.retrying then (.busy, l) else (.owner s, { l with retrying := true })
  | .leaveRetry, l => ((), { l with retrying := false })
  | .endRetry s, l =>
    if l.pending = some s then (true, { l with retrying := false, pending := none })
    else (false, { l with retrying := false })
  | .enterRun, l =>
    if l.pending ≠ none ∨ l.active ∨ l.retrying then (false, l) else (true, { l with active := true })
  | .retain s, l => ((), { l with pending := some s })
  | .endRun, l => ((), { l with active := false })

/-! ### Operations -/

/-- An operation has a timeout of its own, or the deadline of the call. -/
inductive Bound
  | timeout
  | deadline
deriving DecidableEq

/-- What an operation raises. -/
inductive Raised
  | timeout
  | other
deriving DecidableEq

/-- A runner, if it is a sequence of strings. -/
abbrev Runner := Option (List Text)

inductive Call
  | run (runner : Runner)
  | runWithDeadline (runner : Runner)
  | retryCleanup
  | retryCleanupWithDeadline

inductive Op
  | nextCall
  | usableNs
  | locked (x : Section)
  | create
  | acquire (bound : Bound) (supervisor : ℕ)
  /-- The transport that the supervisor was given, and its nonce. -/
  | nonce (supervisor : ℕ)
  | writeControl (bound : Bound) (supervisor : ℕ) (data : Bytes)
  | readResponse (bound : Bound) (supervisor : ℕ)
  | beginClose (bound : Bound) (supervisor : ℕ)
  | endClose (supervisor : ℕ)

variable [UnicodeData]

@[reducible] def Op.Resp : Op → Type
  | .nextCall => Call
  | .usableNs => Answer ℤ
  | .locked x => x.Resp
  | .create => Except Raised ℕ
  | .nonce _ => Except Raised Text
  | .readResponse _ _ => Except Raised ProviderView
  | .beginClose _ _ => Unit
  | .endClose _ => Bool
  | _ => Except Raised Unit

abbrev Executing (α : Type) := Prog Op Op.Resp α

def perform (o : Op) : Executing o.Resp := Prog.perform o

/-! ### Calls -/

/-- What a call comes to. -/
inductive Outcome
  | view (view : ProviderView)
  | released (released : Bool)
  | raised

/-- `_error`. -/
def error (code : SafeErrorCode) : ProviderView := safeErrorView .codex code

/-- A supervisor is closed. The answer is whether the call returned. -/
def close (bound : Bound) (supervisor : ℕ) : Executing Bool := do
  perform (.beginClose bound supervisor)
  perform (.endClose supervisor)

/-- Both retries. -/
def retry (bound : Bound) : Executing Bool := do
  match ← perform (.locked .enterRetry) with
  | .nothing => return true
  | .busy => return false
  | .owner supervisor =>
    if ← close bound supervisor then perform (.locked (.endRetry supervisor))
    else do
      perform (.locked .leaveRetry)
      return false

def retryCleanup : Executing Bool := retry .timeout

def retryCleanupWithDeadline : Executing Bool := retry .deadline

/-- What is sent to a helper. -/
def requestJson (nonce : Text) (runner : List Text) : Json Text :=
  .obj [(Text.ofString "nonce", .str nonce), (Text.ofString "runner", .arr (runner.map .str))]

/-- The first check of a request, with blanks in it and the longest nonce. -/
def isTooLong (runner : List Text) : Bool :=
  MAX_REQUEST < ((Style.ascii (Text.ofString " ")).write
    (requestJson (List.replicate NONCE_LIMIT (.ch 'x')) runner)).length

def request (nonce : Text) (runner : List Text) : Bytes :=
  Encoding.ascii ((Style.ascii []).write (requestJson nonce runner))

/-- The length of a frame, in four bytes. -/
def lengthHeader (n : ℕ) : Bytes :=
  [UInt8.ofNat (n / 16777216), UInt8.ofNat (n / 65536), UInt8.ofNat (n / 256), UInt8.ofNat n]

/-- The view of what was raised. -/
def errorOf : Raised → ProviderView
  | .timeout => error .timeout
  | .other => error .providerError

/-- The outcomes that are worth more than an error of the cleanup. -/
def isDecoded (view : ProviderView) : Bool :=
  view.outcome = some .snapshot ∨ view.outcome = some .undetected ∨ view.outcome = some .notRun

/-- The response to a request, and whether it was decoded. -/
def exchange (bound : Bound) (supervisor : ℕ) (data : Bytes) : Executing (ProviderView × Bool) := do
  match ← perform (.writeControl bound supervisor (lengthHeader data.length ++ data)) with
  | .error e => return (errorOf e, false)
  | .ok () =>
    match ← perform (.readResponse bound supervisor) with
    | .error e => return (errorOf e, false)
    | .ok view => return (view, isDecoded view)

/-- What is done with a supervisor before it is closed, and whether the result stands if the close
fails: one that was decoded does, and so does that of a request which is too long, since it is
returned on the spot. -/
def converse (bound : Bound) (supervisor : ℕ) (runner : List Text) :
    Executing (ProviderView × Bool) := do
  match ← perform (.acquire bound supervisor) with
  | .error e => return (errorOf e, false)
  | .ok () =>
    match ← perform (.nonce supervisor) with
    | .error e => return (errorOf e, false)
    | .ok nonce =>
      if MAX_REQUEST < (request nonce runner).length then return (error .invocationInvalid, true)
      else exchange bound supervisor (request nonce runner)

/-- A supervisor is used and closed, or kept. -/
def conclude (bound : Bound) (supervisor : ℕ) (runner : List Text) : Executing ProviderView := do
  let (result, stands) ← converse bound supervisor runner
  if ← close bound supervisor then return result
  else do
    perform (.locked (.retain supervisor))
    return if stands then result else error .internalError

/-- The part of a run that others are kept out of. -/
def attempt (bound : Bound) (runner : List Text) : Executing ProviderView := do
  match ← perform .create with
  | .error e => return errorOf e
  | .ok supervisor => conclude bound supervisor runner

/-- Both runs, from where they ask for the executor. -/
def execute (bound : Bound) (runner : List Text) : Executing Outcome := do
  if ← perform (.locked .enterRun) then
    let result ← attempt bound runner
    perform (.locked .endRun)
    return .view result
  else return .view (error .internalError)

/-- `run`. -/
def run : Runner → Executing Outcome
  | none => return .view (error .invocationInvalid)
  | some runner =>
    if isTooLong runner then return .view (error .invocationInvalid)
    else do
      if ← retryCleanup then execute .timeout runner
      else return .view (error .internalError)

/-- A run is begun while there is time left. -/
def executeInTime (runner : List Text) : Executing Outcome := do
  match ← perform .usableNs with
  | .raised => return .raised
  | .returned usable =>
    if usable ≤ 0 then return .view (notRunView .codex "deadline_exhausted")
    else execute .deadline runner

/-- `run_with_deadline`. -/
def runWithDeadline : Runner → Executing Outcome
  | none => return .view (error .invocationInvalid)
  | some runner =>
    if isTooLong runner then return .view (error .invocationInvalid)
    else do
      if ← retryCleanupWithDeadline then executeInTime runner
      else return .view (error .internalError)

/-- What a call performs. -/
def Call.program : Call → Executing Outcome
  | .run runner => Executor.run runner
  | .runWithDeadline runner => Executor.runWithDeadline runner
  | .retryCleanup => do return .released (← Executor.retryCleanup)
  | .retryCleanupWithDeadline => do return .released (← Executor.retryCleanupWithDeadline)

/-- The next call of a thread, whatever its last one came to. -/
def nextCall (_ : Option Outcome) : Executing (Option Outcome) := do
  let call ← perform .nextCall
  return some (← call.program)

/-! ### The threads and their supervisors -/

/-- What the threads share: the fields of the executor, and what has become of supervisors. -/
structure World (I : Type) where
  lifecycle : Lifecycle
  /-- The thread that has made the executor active, or retrying. -/
  holder : Option I
  /-- How many supervisors there have been. -/
  created : ℕ
  /-- The supervisors that a call to close has returned for. -/
  closed : ℕ → Bool
  /-- The supervisors that the last call to close has failed for. -/
  failed : ℕ → Bool
  /-- The supervisor that a thread is in a call to close. -/
  closing : I → Option ℕ

section Machine

variable {I : Type} [DecidableEq I]

/-- A supervisor that there is, and that has not been closed successfully. -/
def World.Unclosed (w : World I) (s : ℕ) : Prop := s < w.created ∧ w.closed s = false

/-- Who has the executor after a section. -/
def Section.holder (i : I) (holder : Option I) : (x : Section) → x.Resp → Option I
  | .enterRetry, .owner _ => some i
  | .enterRetry, _ => holder
  | .enterRun, true => some i
  | .enterRun, false => holder
  | .retain _, _ => holder
  | .leaveRetry, _ | .endRetry _, _ | .endRun, _ => none

/-- The world after a section of a thread. -/
def World.locked (w : World I) (i : I) (x : Section) : World I :=
  { w with lifecycle := (x.run w.lifecycle).2, holder := x.holder i w.holder (x.run w.lifecycle).1 }

/-- The end of a call to close. -/
def World.endClose (w : World I) (i : I) (s : ℕ) (returned : Bool) : World I :=
  { w with
    closed := if returned then Function.update w.closed s true else w.closed
    failed := Function.update w.failed s !returned
    closing := Function.update w.closing i none }

/-- What an operation of a thread may answer, and the world it may leave. -/
def answers (i : I) : (o : Op) → World I → o.Resp → World I → Prop
  | .locked x, w, r, w' => r = (x.run w.lifecycle).1 ∧ w' = w.locked i x
  | .create, w, r, w' => (∃ e, r = .error e) ∧ w' = w ∨
      r = .ok w.created ∧ w' = { w with created := w.created + 1 }
  | .beginClose _ s, w, _, w' => w' = { w with closing := Function.update w.closing i (some s) }
  | .endClose s, w, r, w' => w' = w.endClose i s r
  | .nextCall, w, _, w' | .usableNs, w, _, w' | .acquire _ _, w, _, w' | .nonce _, w, _, w'
  | .writeControl _ _ _, w, _, w' | .readResponse _ _, w, _, w' => w' = w

/-- The machine of the threads that share an executor. -/
def threads : Machine I Op Op.Resp (World I) where
  step := answers
  env _ _ := False
  live _ _ := True

abbrev ExecutorConfig (I : Type) := Config I Op Op.Resp (World I) (Option Outcome)

/-- The executor as it is made. -/
def World.init : World I where
  lifecycle := ⟨none, false, false⟩
  holder := none
  created := 0
  closed _ := false
  failed _ := false
  closing _ := none

/-- The configurations reached by calls of the threads. -/
def Reachable (σ : ExecutorConfig I) : Prop :=
  threads.Reaches (fun _ => nextCall) ⟨World.init, fun _ => .ret none⟩ σ

end Machine

end Executor

end YasbLimitora
