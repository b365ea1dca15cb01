import Mathlib
import YasbLimitora.ConfigLock.Marker
import YasbLimitora.Coordinator.World

/-!
# The lease of the configuration

`config_lease` of `_config_lock.py` as a program over the operations it performs on what is
outside it. A process asks for the mutex of the configuration; where that cannot be had it
falls back to a marker file, which it creates, or takes over from an owner that it finds
dead: it deletes the file that it has open, and tries again to create one. The body of the
`with` statement is an operation of its own, performed with the lease.

The primitives raise `OSError`, if anything; a program returns nothing, or `false`, in its
place. A loop that ends with the deadline is given the rounds that there are before it.

Operations are named after the native calls and not after the methods that make them, so that a
specification of an operation is a statement about the system. Which file a handle leads to is fixed
when it is opened, while which file is at the path may change at any time; the program therefore
asks for identities and compares them.
-/

namespace YasbLimitora

namespace ConfigLock

def RELEASE_RETRIES : ℕ := 3

/-! ### Operations -/

abbrev Identity := ℕ × ℕ × ℕ

/-- What is found of an open file. -/
structure Info where
  reparse : Bool
  directory : Bool
  identity : Identity

inductive Access
  /-- The parent directory, which is not shared for deletion. -/
  | parent
  /-- `CREATE_NEW` of the marker. -/
  | createNew
  /-- `OPEN_EXISTING` of the marker. -/
  | openExisting
deriving DecidableEq

/-- What comes of waiting for the mutex. -/
inductive Wait
  | signaled
  | abandoned
  | timeout
  | failed
deriving DecidableEq

/-- By what a process has the lease. -/
inductive Mode
  | guard
  | marker
deriving DecidableEq

inductive Op
  /-- The rounds that there are before the deadline. -/
  | rounds
  | usableNs
  | createMutex
  | waitMutex
  | releaseMutex
  | closeMutex
  | createFile (access : Access)
  | queryInfo (handle : ℕ)
  /-- The final path of a handle is the one expected. -/
  | finalPath (handle : ℕ)
  | readFile (handle : ℕ)
  | writeFile (handle : ℕ) (data : Bytes)
  | flush (handle : ℕ)
  | setDisposition (handle : ℕ)
  | close (handle : ℕ)
  /-- `creation_token` of a process. -/
  | processToken (pid : ℕ)
  /-- The body of the `with` statement. -/
  | body (mode : Mode)

def Op.Resp : Op → Type
  | .rounds | .writeFile _ _ => ℕ
  | .usableNs => ℤ
  | .waitMutex => Wait
  | .createFile _ => Option ℕ
  | .queryInfo _ => Option Info
  | .readFile _ => Option Bytes
  | .processToken _ => ProcessToken
  | .body _ => Unit
  | _ => Bool

abbrev Locking (α : Type) := Prog Op Op.Resp α

def perform (o : Op) : Locking o.Resp := Prog.perform o

/-! ### The mutex -/

inductive GuardAcquired
  | lease
  | waitTimeout
  | acquisitionFailed
deriving DecidableEq

/-- `Guard._acquire_name`. -/
def acquireName : Locking GuardAcquired := do
  let created : Bool ← perform .createMutex
  if created then
    let result : Wait ← perform .waitMutex
    match result with
    | .signaled => return .lease
    | .abandoned => return .lease
    | .timeout =>
      let _ ← perform .closeMutex
      return .waitTimeout
    | .failed =>
      let _ ← perform .closeMutex
      return .acquisitionFailed
  else return .acquisitionFailed

/-- The loop of `config_lease` over the mutex. -/
def acquireGuard : ℕ → Locking GuardAcquired
  | 0 => return .waitTimeout
  | rounds + 1 => do
    match ← acquireName with
    | .waitTimeout =>
      let usable : ℤ ← perform .usableNs
      if usable ≤ 0 then return .waitTimeout else acquireGuard rounds
    | acquired => return acquired

/-- `any` of some tries. -/
def anyOf (o : Locking Bool) : ℕ → Locking Bool
  | 0 => return false
  | tries + 1 => do
    let succeeded ← o
    if succeeded then return true else anyOf o tries

inductive LeaseError
  | busy
  | releaseFailed
  | closeFailed
deriving DecidableEq

/-- The end of `config_lease` for the mutex. -/
def leaveGuard : Locking (Except LeaseError Unit) := do
  let released ← anyOf (perform .releaseMutex) RELEASE_RETRIES
  let closed ← anyOf (perform .closeMutex) RELEASE_RETRIES
  if released then
    if closed then return .ok () else return .error .closeFailed
  else return .error .releaseFailed

/-! ### Primitives of the marker -/

/-- A marker that is open, by the handle and what was found of the file. -/
structure MarkerHold where
  handle : ℕ
  identity : Identity

def safeClose (handle : ℕ) : Locking Unit := do
  let _ ← perform (.close handle)
  return ()

/-- `verify_parent`, once it has a handle. -/
def isParent (handle : ℕ) : Locking Bool := do
  let info : Option Info ← perform (.queryInfo handle)
  match info with
  | none => return false
  | some info =>
    let isFinal : Bool ← perform (.finalPath handle)
    return !info.reparse && info.directory && isFinal

/-- `verify_parent`. -/
def verifyParent : Locking (Option ℕ) := do
  let opened : Option ℕ ← perform (.createFile .parent)
  match opened with
  | none => return none
  | some handle =>
    if ← isParent handle then return some handle
    else
      safeClose handle
      return none

/-- The identity of a regular file at the path of the marker. -/
def regularIdentity (handle : ℕ) : Locking (Option Identity) := do
  let info : Option Info ← perform (.queryInfo handle)
  match info with
  | none => return none
  | some info =>
    if info.reparse || info.directory then return none
    else
      let isFinal : Bool ← perform (.finalPath handle)
      return if isFinal then some info.identity else none

/-- `create_exclusive`. -/
def createExclusive : Locking (Option MarkerHold) := do
  let opened : Option ℕ ← perform (.createFile .createNew)
  match opened with
  | none => return none
  | some handle =>
    match ← regularIdentity handle with
    | some identity => return some ⟨handle, identity⟩
    | none =>
      safeClose handle
      return none

/-- What `_open_marker` asks of the file it opened. -/
def existingIdentity (handle : ℕ) : Locking (Option Identity) := do
  let info : Option Info ← perform (.queryInfo handle)
  match info with
  | none => return none
  | some info =>
    let isFinal : Bool ← perform (.finalPath handle)
    return if info.reparse || info.directory || !isFinal then none else some info.identity

/-- `_open_marker`. -/
def openMarker : Locking (Option MarkerHold) := do
  let opened : Option ℕ ← perform (.createFile .openExisting)
  match opened with
  | none => return none
  | some handle =>
    match ← existingIdentity handle with
    | some identity => return some ⟨handle, identity⟩
    | none =>
      safeClose handle
      return none

/-- `read_marker`. -/
def readMarker (handle : ℕ) : Locking (Option Bytes) := do
  let data : Option Bytes ← perform (.readFile handle)
  match data with
  | none => return none
  | some data => return if MARKER_MAX_BYTES < data.length then none else some data

/-- The loop of `write_marker`, in which each write is of one byte at least. -/
def writeAll (handle : ℕ) : ℕ → Bytes → Locking Bool
  | 0, data => return data.isEmpty
  | fuel + 1, data => do
    if data = [] then return true
    else
      let n : ℕ ← perform (.writeFile handle data)
      if n = 0 ∨ data.length < n then return false else writeAll handle fuel (data.drop n)

/-- `write_marker`. -/
def writeMarker (handle : ℕ) (data : Bytes) : Locking Bool := do
  if data = [] ∨ MARKER_MAX_BYTES < data.length then return false
  else
    let written ← writeAll handle data.length data
    if written then perform (.flush handle) else return false

/-- `identity_reopen`. -/
def identityReopen (expected : Identity) : Locking Bool := do
  let opened : Option ℕ ← perform (.createFile .openExisting)
  match opened with
  | none => return false
  | some probe =>
    let identity ← regularIdentity probe
    let closed : Bool ← perform (.close probe)
    return decide (identity = some expected) && closed

/-- `disposition_delete`, with the witness that a hold has. -/
def dispositionDelete (hold : MarkerHold) : Locking Bool := do
  let info : Option Info ← perform (.queryInfo hold.handle)
  match info with
  | none => return false
  | some info =>
    if info.identity = hold.identity then perform (.setDisposition hold.handle) else return false

/-- A file that is still the one at the path is deleted through the handle that is held. -/
def deleteHeld (hold : MarkerHold) : Locking Bool := do
  let witnessed ← identityReopen hold.identity
  if witnessed then dispositionDelete hold else return false

/-! ### The marker -/

/-- The owner that a marker tells is gone: there is no such process, or one that has another
token. The marker of the process itself is never taken over. -/
def ownerGone (ownPid : ℕ) (data : Bytes) : Locking Bool := do
  match decodeMarker data with
  | none => return false
  | some (pid, token) =>
    if pid = ownPid then return false
    else
      let current : ProcessToken ← perform (.processToken pid)
      match current with
      | .missing => return true
      | .unknown => return false
      | .token current => return decide (Text.ofString current ≠ token)

/-- Whether the marker that is open may be taken over. -/
def reclaimable (ownPid : ℕ) (handle : ℕ) : Locking Bool := do
  match ← readMarker handle with
  | none => return false
  | some data => ownerGone ownPid data

/-- What comes of a marker that is there already. -/
inductive Reclaimed
  | again
  | failed (error : LeaseError)

/-- The marker that is there is taken over: it is deleted, for another to be created. -/
def reclaim (ownPid parent : ℕ) : Locking Reclaimed := do
  match ← openMarker with
  | none =>
    safeClose parent
    return .failed .busy
  | some hold =>
    let gone ← reclaimable ownPid hold.handle
    let deleted ← if gone then deleteHeld hold else pure false
    if deleted then
      let closed : Bool ← perform (.close hold.handle)
      if closed then return .again
      else
        safeClose parent
        return .failed .releaseFailed
    else
      safeClose hold.handle
      safeClose parent
      return .failed .busy

/-- The owner writes itself into the marker that it created. -/
def recordOwner (ownPid handle : ℕ) : Locking Bool := do
  let token : ProcessToken ← perform (.processToken ownPid)
  match token with
  | .token token => match encodeMarker ownPid (Text.ofString token) with
    | none => return false
    | some data => writeMarker handle data
  | _ => return false

/-- A lease by the marker. -/
structure MarkerLease where
  hold : MarkerHold
  parent : ℕ

/-- The loop of `_fallback_lease`. -/
def acquireMarker (ownPid parent : ℕ) : ℕ → Locking (Except LeaseError MarkerLease)
  | 0 => do
    safeClose parent
    return .error .busy
  | rounds + 1 => do
    let usable : ℤ ← perform .usableNs
    if usable ≤ 0 then
      safeClose parent
      return .error .busy
    else match ← createExclusive with
      | none => match ← reclaim ownPid parent with
        | .again => acquireMarker ownPid parent rounds
        | .failed error => return .error error
      | some hold =>
        let recorded ← recordOwner ownPid hold.handle
        if recorded then return .ok ⟨hold, parent⟩
        else
          safeClose hold.handle
          safeClose parent
          return .error .busy

/-- `_fallback_lease`. -/
def fallbackLease (ownPid rounds : ℕ) : Locking (Except LeaseError MarkerLease) := do
  match ← verifyParent with
  | none => return .error .busy
  | some parent => acquireMarker ownPid parent rounds

/-- `ConfigLease.close`, of a lease by the marker. -/
def closeMarkerLease (lease : MarkerLease) : Locking Bool := do
  let deleted ← deleteHeld lease.hold
  let closed : Bool ← perform (.close lease.hold.handle)
  let parentClosed : Bool ← perform (.close lease.parent)
  return deleted && (closed && parentClosed)

/-! ### The lease -/

/-- `config_lease`, with the body of its `with` statement. -/
def configLease (ownPid : ℕ) : Locking (Except LeaseError Unit) := do
  let rounds : ℕ ← perform .rounds
  match ← acquireGuard (rounds + 1) with
  | .lease =>
    let _ ← perform (.body .guard)
    leaveGuard
  | .waitTimeout => return .error .busy
  | .acquisitionFailed => match ← fallbackLease ownPid rounds with
    | .error error => return .error error
    | .ok lease =>
      let _ ← perform (.body .marker)
      let closed ← closeMarkerLease lease
      return if closed then .ok () else .error .releaseFailed

end ConfigLock

end YasbLimitora
