import Mathlib
import YasbLimitora.ConfigLock.Program

/-!
# What processes that lock the configuration share

The world of the processes that share a directory for local application data: the mutex, the
marker file, and the processes themselves, each of which is born once and dies for good.

Of the mutex it is promised that it is exclusive, counts how often its owner has taken it,
and goes with its owner. Of files, that a new one is created only where there is none at the
path; that a file is deleted through a handle that is open on it, and is there until no
handle is open on it, but cannot be opened meanwhile; that what is read is what has been
written. Of the process table, that it tells the truth. All else may fail at any time.
-/

namespace YasbLimitora

namespace ConfigLock

/-- A file that was created at the path of the marker. -/
structure LockFile (I : Type) where
  creator : I
  identity : Identity
  content : Bytes
  /-- It is deleted: it goes when the last handle on it is closed. -/
  deleted : Bool

/-- What a handle is open on. -/
inductive Target
  | parent
  | file (f : ℕ)
deriving DecidableEq

structure World (I P : Type) where
  /-- The owner of the mutex, with how often more it has taken it. -/
  mutex : Option (I × ℕ)
  /-- The file at the path of the marker. -/
  leaf : Option ℕ
  files : ℕ → Option (LockFile I)
  /-- The handles that a thread has open. -/
  handles : I → ℕ → Option Target
  phase : P → Phase

section Machine

variable {I P : Type} [DecidableEq I] (fleet : Fleet I P)

namespace World

def setHandle (w : World I P) (i : I) (handle : ℕ) (t : Option Target) : World I P :=
  { w with handles := Function.update w.handles i (Function.update (w.handles i) handle t) }

def setFile (w : World I P) (f : ℕ) (file : LockFile I) : World I P :=
  { w with files := Function.update w.files f (some file) }

/-- A file that a handle of a thread is open on. -/
def Opens (w : World I P) (i : I) (handle f : ℕ) (file : LockFile I) : Prop :=
  w.handles i handle = some (.file f) ∧ w.files f = some file

end World

/-- What the process table may answer. -/
def TellsTruth (w : World I P) (pid : ℕ) : ProcessToken → Prop
  | .unknown => True
  | .missing => ∀ p, fleet.pid p = pid → w.phase p ≠ .alive
  | .token t => ∀ p, fleet.pid p = pid → w.phase p = .alive → fleet.token p = t

/-- What opening a file may answer, and leave. -/
def opens (i : I) (w : World I P) : Access → Option ℕ → World I P → Prop
  | _, none, w' => w' = w
  | .parent, some handle, w' => w.handles i handle = none ∧ w' = w.setHandle i handle (some .parent)
  | .createNew, some handle, w' => w.handles i handle = none ∧ w.leaf = none ∧
      ∃ f identity, w.files f = none ∧
        w' = { (w.setFile f ⟨i, identity, [], false⟩).setHandle i handle (some (.file f)) with
          leaf := some f }
  | .openExisting, some handle, w' => w.handles i handle = none ∧
      ∃ f file, w.leaf = some f ∧ w.files f = some file ∧ file.deleted = false ∧
        w' = w.setHandle i handle (some (.file f))

/-- What a write may answer, and leave. One that is reported to have failed may have written a
part. -/
def writes (i : I) (w : World I P) (handle : ℕ) (data : Bytes) (r : ℕ) (w' : World I P) : Prop :=
  (∃ f file n, w.Opens i handle f file ∧ n ≤ data.length ∧ (r = n ∨ r = 0) ∧
    w' = w.setFile f { file with content := file.content ++ data.take n }) ∨ r = 0 ∧ w' = w

/-- What an operation of a thread may answer, and the world it may leave. -/
def answers (i : I) : (o : Op) → World I P → o.Resp → World I P → Prop
  | .waitMutex, w, r, w' =>
    (r = .signaled ∨ r = .abandoned) ∧ w.mutex = none ∧ w' = { w with mutex := some (i, 0) } ∨
      r = .signaled ∧ (∃ n, w.mutex = some (i, n) ∧ w' = { w with mutex := some (i, n + 1) }) ∨
      (r = .timeout ∨ r = .failed) ∧ w' = w
  | .releaseMutex, w, r, w' =>
    r = true ∧ (w.mutex = some (i, 0) ∧ w' = { w with mutex := none } ∨
        ∃ n, w.mutex = some (i, n + 1) ∧ w' = { w with mutex := some (i, n) }) ∨
      r = false ∧ w' = w
  -- with its last handle the mutex itself goes
  | .closeMutex, w, _, w' => w' = w ∨ (∃ n, w.mutex = some (i, n)) ∧ w' = { w with mutex := none }
  | .createFile access, w, r, w' => opens i w access r w'
  | .queryInfo handle, w, r, w' => w' = w ∧
      ∀ info f file, r = some info → w.Opens i handle f file → info.identity = file.identity
  | .readFile handle, w, r, w' => w' = w ∧
      ∀ data, r = some data → ∃ f file, w.Opens i handle f file ∧
        data = file.content.take (MARKER_MAX_BYTES + 1)
  | .writeFile handle data, w, r, w' => writes i w handle data r w'
  | .setDisposition handle, w, r, w' =>
    (∃ f file, w.Opens i handle f file ∧ w' = w.setFile f { file with deleted := true }) ∨
      r = false ∧ w' = w
  | .close handle, w, r, w' => w' = w.setHandle i handle none ∨ r = false ∧ w' = w
  | .processToken pid, w, r, w' => w' = w ∧ TellsTruth fleet w pid r
  | .rounds, w, _, w' | .usableNs, w, _, w' | .createMutex, w, _, w' | .finalPath _, w, _, w'
  | .flush _, w, _, w' | .body _, w, _, w' => w' = w

/-- What the world does by itself: processes are born and die, the mutex and handles of a
thread go with its process, and a deleted file goes that no handle is open on. -/
structure Passes (w w' : World I P) : Prop where
  ages : ∀ p, (w.phase p).Ages (w'.phase p)
  files : w'.files = w.files
  handles : ∀ i handle, w'.handles i handle = w.handles i handle ∨
    w'.handles i handle = none ∧ w'.phase (fleet.proc i) = .dead
  mutex : w'.mutex = w.mutex ∨
    w'.mutex = none ∧ ∃ i n, w.mutex = some (i, n) ∧ w'.phase (fleet.proc i) = .dead
  leaf : w'.leaf = w.leaf ∨
    w'.leaf = none ∧ ∃ f file, w.leaf = some f ∧ w.files f = some file ∧ file.deleted = true ∧
      ∀ i handle, w'.handles i handle ≠ some (.file f)

/-- The machine of the processes. -/
def lockers : Machine I Op Op.Resp (World I P) where
  step := answers fleet
  env := Passes fleet
  live i w := w.phase (fleet.proc i) = .alive

/-- What the last call of a thread returned, if there was one. -/
abbrev Returned := Option (Except LeaseError Unit)

/-- The next call of a thread. -/
def nextCall (i : I) (_ : Returned) : Locking Returned := do
  let result ← configLease (fleet.pid (fleet.proc i))
  return some result

abbrev LockConfig (I P : Type) := Config I Op Op.Resp (World I P) Returned

/-- Before the first call: the mutex is free, and there is no marker. -/
structure Initial (σ : LockConfig I P) : Prop where
  mutex : σ.world.mutex = none
  leaf : σ.world.leaf = none
  files : ∀ f, σ.world.files f = none
  handles : ∀ i handle, σ.world.handles i handle = none
  idle : ∀ i, ∃ r, σ.prog i = .ret r

/-- The configurations reached from an initial one. -/
def Reachable (σ : LockConfig I P) : Prop :=
  ∃ σ₀, Initial σ₀ ∧ (lockers fleet).Reaches (nextCall fleet) σ₀ σ

end Machine

end ConfigLock

end YasbLimitora
