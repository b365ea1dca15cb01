import Mathlib
import YasbLimitora.Lib.Instant
import YasbLimitora.Lib.Interaction

/-!
# The refresh coordinator

`RefreshCoordinator` of `cache.py` as a program over the operations it performs on what
is outside it: the lease, the marker and cache files, the clocks, the process table and
the producer. Each method keeps its name and its order of operations. What the object
remembers between calls, `_pending_lease` and `_pending_claim`, is the record
`YasbLimitora.Memory` that every method takes and gives back; a method that may raise
answers with what its callers make of the exception.

Reads of the marker and writes carry the purpose they serve. The purpose changes nothing
in the program; it is what tells, of an operation seen from outside, on behalf of which
claim it is performed.
-/

namespace YasbLimitora

def REFRESH_WAIT_QUANTUM_NS : ℤ := 10000000

def MAX_CACHE_DOCUMENT_BYTES : ℕ := 65536

/-! ### Records -/

/-- The document of a marker file. -/
structure Marker where
  generation : ℕ
  ownerPid : ℕ
  ownerToken : String
  startedAt : Instant
deriving DecidableEq

/-- The checks of `_marker_document` that the types leave open. -/
def Marker.isValid (m : Marker) : Bool :=
  0 < m.generation && m.ownerToken.length ≤ 128 &&
    (m.ownerPid != 0 || m.ownerToken == "") && (m.ownerPid == 0 || m.ownerToken != "")

/-- The opaque authority for one refresh attempt. -/
structure RefreshClaim where
  generation : ℕ
  ownerPid : ℕ
  ownerToken : String
deriving DecidableEq

/-- `_same_claim`, for a marker that is there. -/
def sameClaim (m : Marker) (c : RefreshClaim) : Bool :=
  m.generation == c.generation && m.ownerPid == c.ownerPid && m.ownerToken == c.ownerToken

inductive CoordinationError
  | internalError
  | deadlineExhausted
  | guardWaitTimeout
  | guardAcquisitionFailed
deriving DecidableEq, Repr

inductive OwnerState
  | alive
  | dead
  | unknown
deriving DecidableEq, Repr

structure SingleFlightResult (V : Type) where
  value : Option V
  cachedPublicBytes : Option ByteArray
  deadlineExhausted : Bool
  produced : Bool
  coordinationFailed : Bool
  coordinationError : Option CoordinationError

/-- A lease, by what has been recorded of giving it up. -/
structure Lease where
  released : Bool
  closed : Bool
deriving DecidableEq

def Lease.fresh : Lease := ⟨false, false⟩

/-- What a coordinator remembers between calls. -/
structure Memory where
  pendingLease : Option Lease
  pendingClaim : Option RefreshClaim
deriving DecidableEq

structure RefreshState where
  cachedPublicBytes : Option ByteArray
  marker : Option Marker
  ownerState : Option OwnerState
  lease : Option Lease
  coordinationError : Option CoordinationError

structure RefreshDecision (V : Type) where
  claim : Option RefreshClaim
  wait : Bool
  result : Option (SingleFlightResult V)

/-! ### Operations -/

/-- Why a marker is read or written: to inspect it, to claim, to clear a claim that an
earlier call left pending, or to finish a claim. -/
inductive Purpose
  | inspecting
  | claiming (c : RefreshClaim)
  | recovering (c : RefreshClaim)
  | finishing (c : RefreshClaim)
deriving DecidableEq

inductive Op
  /-- `self._now()`. -/
  | now
  /-- `datetime.now(timezone.utc)`. -/
  | utcNow
  | usableNs
  | sleep (ns : ℤ)
  | load
  | acquireKey
  | releaseLease
  | closeLease
  | readMarker (purpose : Purpose)
  | writeMarker (marker : Marker) (purpose : Purpose)
  | writeCache (c : RefreshClaim) (envelope : ByteArray)
  | processToken (pid : ℕ)
  | produce (c : RefreshClaim)
deriving DecidableEq

/-- What comes of asking for the lease. -/
inductive Acquired
  | lease
  | guardError (code : CoordinationError)
  | raised
deriving DecidableEq

/-- What is known of the process with some identifier. -/
inductive ProcessToken
  | token (t : String)
  | missing
  | unknown
deriving DecidableEq

/-- What a producer does: it raises, or returns a result or some other value. -/
inductive Produced (V : Type)
  | raised
  | result (r : SingleFlightResult V)
  | value (v : V)

variable (V : Type)

/-- What each operation answers. A clock may give no aware time; a marker is read with
whether it was readable. -/
def Op.Resp : Op → Type
  | .now => Option Instant
  | .utcNow => Instant
  | .usableNs => ℤ
  | .sleep _ => Unit
  | .load => Option ByteArray
  | .acquireKey => Acquired
  | .releaseLease => Bool
  | .closeLease => Bool
  | .readMarker _ => Option Marker × Bool
  | .writeMarker _ _ => Bool
  | .writeCache _ _ => Bool
  | .processToken _ => ProcessToken
  | .produce _ => Produced V

abbrev Coordination (α : Type) := Prog Op (Op.Resp V) α

/-- Which document can be published, and the cache file it is written as at some time. -/
structure Publication where
  accepts : ByteArray → Bool
  envelope : ByteArray → Instant → Option ByteArray

namespace RefreshCoordinator

variable {V}

def now : Coordination V (Option Instant) := Prog.perform Op.now

def utcNow : Coordination V Instant := Prog.perform Op.utcNow

def usableNs : Coordination V ℤ := Prog.perform Op.usableNs

def sleep (ns : ℤ) : Coordination V Unit := Prog.perform (Op.sleep ns)

def load : Coordination V (Option ByteArray) := Prog.perform Op.load

def acquireKey : Coordination V Acquired := Prog.perform Op.acquireKey

def readMarkerState (purpose : Purpose) : Coordination V (Option Marker × Bool) :=
  Prog.perform (Op.readMarker purpose)

def processToken (pid : ℕ) : Coordination V ProcessToken := Prog.perform (Op.processToken pid)

/-- `_write_marker`: the checks of the document, and the write. -/
def writeMarker (m : Marker) (purpose : Purpose) : Coordination V Bool :=
  if m.isValid then Prog.perform (Op.writeMarker m purpose) else pure false

/-! ### Methods -/

variable (pid : ℕ) (publication : Publication)

def ownerState (m : Marker) : Coordination V OwnerState :=
  if m.ownerPid = 0 ∨ m.ownerToken = "" then pure .unknown
  else do
    match ← processToken m.ownerPid with
    | .unknown => pure .unknown
    | .missing => pure .dead
    | .token t => pure (if t = "" then .unknown else if t = m.ownerToken then .alive else .dead)

/-- `_close_lease`: whether the lease has been given up for good, and what is recorded
of it. -/
def closeLease (l : Lease) : Coordination V (Bool × Lease) := do
  let released ← (if l.released then pure true else Prog.perform Op.releaseLease)
  let closed ← (if released && !l.closed then Prog.perform Op.closeLease else pure l.closed)
  return (released && closed, ⟨released, closed⟩)

/-- A lease that an earlier method could not give up is closed before anything else. -/
def closePendingLease (mem : Memory) : Coordination V (Bool × Memory) :=
  match mem.pendingLease with
  | none => pure (true, mem)
  | some l => do
    let (closed, l) ← closeLease l
    return (closed, { mem with pendingLease := if closed then none else some l })

/-- The end of a method that holds a lease of its own: it is closed, or retained. -/
def closeOrRetain (mem : Memory) : Coordination V (Bool × Memory) := do
  let (closed, l) ← closeLease .fresh
  return (closed, if closed then mem else { mem with pendingLease := some l })

def coordinationResult (code : CoordinationError) : SingleFlightResult V where
  value := none
  cachedPublicBytes := none
  deadlineExhausted := code == .deadlineExhausted
  produced := false
  coordinationFailed := true
  coordinationError := some code

def deadlineResult : SingleFlightResult V := ⟨none, none, true, false, false, none⟩

def cachedResult (bytes : ByteArray) : SingleFlightResult V :=
  ⟨none, some bytes, false, false, false, none⟩

/-- The code of a failure that the deadline may explain. -/
def failureCode : Coordination V CoordinationError := do
  let usable ← usableNs
  return if usable ≤ 0 then .deadlineExhausted else .internalError

def inactiveMarker (generation : ℕ) : Coordination V Marker := do
  match ← now with
  | some t => return ⟨generation, 0, "", t⟩
  | none =>
    let t ← utcNow
    return ⟨generation, 0, "", t⟩

/-- The marker is cleared for a claim. -/
def clearMarker (c : RefreshClaim) (purpose : Purpose) : Coordination V Bool := do
  let inactive ← inactiveMarker c.generation
  writeMarker inactive purpose

/-- A marker that was read is exactly the one of a claim. -/
def isMarkerOf (marker : Option Marker) (c : RefreshClaim) : Bool := marker.any (sameClaim · c)

def recoverPendingClaim (mem : Memory) : Coordination V (Bool × Memory) :=
  match mem.pendingClaim with
  | none => pure (true, mem)
  | some c => do
    match ← acquireKey with
    | .guardError _ => return (false, mem)
    | .raised => return (false, mem)
    | .lease =>
      let (marker, readable) ← readMarkerState (.recovering c)
      let recovered ←
        (if readable && isMarkerOf marker c then clearMarker c (.recovering c) else pure readable)
      let (closed, mem) ← closeOrRetain mem
      return (recovered && closed,
        if recovered && closed then { mem with pendingClaim := none } else mem)

/-- `_claim_locked`; nothing where there is no claim. -/
def claimLocked (marker : Option Marker) : Coordination V (Option RefreshClaim) := do
  match ← processToken pid with
  | .unknown => return none
  | .missing => return none
  | .token t =>
    if t = "" then return none
    else
      let claim : RefreshClaim := ⟨(marker.map (·.generation)).getD 0 + 1, pid, t⟩
      match ← now with
      | none => return none
      | some startedAt =>
        let written ← writeMarker
          ⟨claim.generation, claim.ownerPid, claim.ownerToken, startedAt⟩ (.claiming claim)
        return if written then some claim else none

/-- A state with nothing but an error. -/
def failedState (code : CoordinationError) : RefreshState := ⟨none, none, none, none, some code⟩

/-- The codes of the guard that are passed on. -/
def guardCode (code : CoordinationError) : CoordinationError :=
  if code = .guardWaitTimeout ∨ code = .guardAcquisitionFailed then code else .internalError

/-- The part of `inspect_state` that runs with the lease. -/
def inspectLocked : Coordination V RefreshState := do
  match ← load with
  | some bytes => return ⟨some bytes, none, none, some .fresh, none⟩
  | none =>
    match ← readMarkerState .inspecting with
    | (_, false) =>
      let code ← failureCode
      return ⟨none, none, none, some .fresh, some code⟩
    | (none, true) => return ⟨none, none, none, some .fresh, none⟩
    | (some m, true) =>
      if m.ownerPid = 0 then return ⟨none, some m, none, some .fresh, none⟩
      else
        let owner ← ownerState m
        return ⟨none, some m, some owner, some .fresh, none⟩

def inspectState (mem : Memory) : Coordination V (RefreshState × Memory) := do
  let (closed, mem) ← closePendingLease mem
  if !closed then return (failedState .internalError, mem)
  else
    let (recovered, mem) ← recoverPendingClaim mem
    if !recovered then return (failedState .internalError, mem)
    else
      match ← acquireKey with
      | .guardError code => return (failedState (guardCode code), mem)
      | .raised =>
        let code ← failureCode
        return (failedState code, mem)
      | .lease =>
        let state ← inspectLocked
        return (state, mem)

def releaseInspection (lease : Option Lease) (claim : Option RefreshClaim) (mem : Memory) :
    Coordination V (Bool × Memory) :=
  match lease with
  | none => pure (true, mem)
  | some l => do
    let (closed, l) ← closeLease l
    return (closed, if closed then mem else ⟨some l, claim <|> mem.pendingClaim⟩)

def decide (r : SingleFlightResult V) : RefreshDecision V := ⟨none, false, some r⟩

/-- A decision that takes no claim: the lease is released first, and a failure to release
it is an internal error. -/
def releaseThen (state : RefreshState) (mem : Memory)
    (decision : Coordination V (RefreshDecision V)) :
    Coordination V (RefreshDecision V × Memory) := do
  let (released, mem) ← releaseInspection state.lease none mem
  if released then
    let decision ← decision
    return (decision, mem)
  else return (decide (coordinationResult .internalError), mem)

/-- The part of `claim_or_wait` that takes the claim. -/
def claimAndRelease (state : RefreshState) (mem : Memory) :
    Coordination V (RefreshDecision V × Memory) := do
  let claim ← claimLocked pid state.marker
  let error ← (if claim.isSome then pure none else some <$> failureCode)
  let (released, mem) ← releaseInspection state.lease claim mem
  match if released then error else some .internalError with
  | some code => return (decide (coordinationResult code), mem)
  | none => return (⟨claim, false, none⟩, mem)

def claimOrWait (state : RefreshState) (mem : Memory) :
    Coordination V (RefreshDecision V × Memory) :=
  match state.coordinationError, state.cachedPublicBytes, state.ownerState with
  | some code, _, _ => do
    let (_, mem) ← releaseInspection state.lease none mem
    return (decide (coordinationResult code), mem)
  | none, some bytes, _ => releaseThen state mem (pure (decide (cachedResult bytes)))
  | none, none, some .alive => releaseThen state mem (pure ⟨none, true, none⟩)
  | none, none, some .unknown =>
    releaseThen state mem ((fun code => decide (coordinationResult code)) <$> failureCode)
  | none, none, some .dead => claimAndRelease pid state mem
  | none, none, none => claimAndRelease pid state mem

def publishUnlocked (c : RefreshClaim) (document : ByteArray) : Coordination V Bool :=
  if document.size ≤ MAX_CACHE_DOCUMENT_BYTES ∧ publication.accepts document then do
    match ← now with
    | none => return false
    | some t =>
      match publication.envelope document t with
      | none => return false
      | some envelope => Prog.perform (Op.writeCache c envelope)
  else pure false

/-- The part of `_finish_claim` that runs with the lease. -/
def finishLocked (c : RefreshClaim) (document : Option ByteArray) (mem : Memory) :
    Coordination V (Bool × Memory) := do
  let (marker, readable) ← readMarkerState (.finishing c)
  if readable && isMarkerOf marker c then
    let published ← (match document with
      | some document => publishUnlocked publication c document
      | none => pure false)
    let cleared ← clearMarker c (.finishing c)
    return if cleared then (published, mem) else (false, { mem with pendingClaim := some c })
  else return (false, mem)

def finishClaim (c : RefreshClaim) (document : Option ByteArray) (mem : Memory) :
    Coordination V (Bool × Memory) := do
  match ← acquireKey with
  | .guardError _ => return (false, { mem with pendingClaim := some c })
  | .raised => return (false, { mem with pendingClaim := some c })
  | .lease =>
    let (published, mem) ← finishLocked publication c document mem
    let (closed, mem) ← closeOrRetain mem
    return (published && closed, mem)

/-- A call that holds a claim: the producer, and the finish. Nothing is returned where the
producer raises. -/
def produceAndFinish (c : RefreshClaim) (mem : Memory) :
    Coordination V (Option (SingleFlightResult V) × Memory) := do
  match ← (Prog.perform (Op.produce c) : Coordination V (Produced V)) with
  | .raised =>
    let (_, mem) ← finishClaim publication c none mem
    return (none, mem)
  | .result r =>
    let (published, mem) ← finishClaim publication c r.cachedPublicBytes mem
    return (some (if published then r else { r with cachedPublicBytes := none }), mem)
  | .value v =>
    let (_, mem) ← finishClaim publication c none mem
    return (some ⟨some v, none, false, true, false, none⟩, mem)

/-- A result that a timeout of the lease led to gives way to the cache. -/
def orCached (r : SingleFlightResult V) : Coordination V (SingleFlightResult V) :=
  if r.coordinationError = some .guardWaitTimeout then do
    let cached ← load
    return (cached.map cachedResult).getD r
  else pure r

/-- The wait of one attempt; nothing where there is time for another. -/
def waitOnce : Coordination V (Option (SingleFlightResult V)) := do
  let usable ← usableNs
  if usable ≤ 0 then return some deadlineResult
  else
    let usable ← usableNs
    sleep (min REFRESH_WAIT_QUANTUM_NS usable)
    return none

/-- The loop of `get_or_refresh`, with the attempts it has left. -/
def refreshLoop : ℕ → Memory → Coordination V (Option (SingleFlightResult V) × Memory)
  | 0, mem => do
    let code ← failureCode
    return (some (coordinationResult code), mem)
  | attempts + 1, mem => do
    let usable ← usableNs
    if usable ≤ 0 then return (some deadlineResult, mem)
    else
      let (state, mem) ← inspectState mem
      let (decision, mem) ← claimOrWait pid state mem
      match decision with
      | ⟨_, _, some result⟩ =>
        let result ← orCached result
        return (some result, mem)
      | ⟨_, true, none⟩ =>
        match ← waitOnce with
        | some result => return (some result, mem)
        | none => refreshLoop attempts mem
      | ⟨none, false, none⟩ =>
        let code ← failureCode
        return (some (coordinationResult code), mem)
      | ⟨some c, false, none⟩ => produceAndFinish publication c mem

/-- The look at the cache before any lease is asked for, which a pending claim skips. -/
def preload (mem : Memory) : Coordination V (Option (SingleFlightResult V) × Memory) :=
  match mem.pendingClaim with
  | some _ => pure (none, mem)
  | none => do
    let (closed, mem) ← closePendingLease mem
    if closed then
      let cached ← load
      return (cached.map cachedResult, mem)
    else return (some (coordinationResult .internalError), mem)

def getOrRefresh (mem : Memory) : Coordination V (Option (SingleFlightResult V) × Memory) := do
  match ← preload mem with
  | (some result, mem) => return (some result, mem)
  | (none, mem) =>
    let usable ← usableNs
    if usable ≤ 0 then return (some deadlineResult, mem)
    else
      let attempts := max 1 ((usable + REFRESH_WAIT_QUANTUM_NS - 1) / REFRESH_WAIT_QUANTUM_NS)
      refreshLoop pid publication attempts.toNat mem

end RefreshCoordinator

end YasbLimitora
