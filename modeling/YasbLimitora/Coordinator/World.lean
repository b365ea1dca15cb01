import Mathlib
import YasbLimitora.Coordinator.Program

/-!
# What coordinators share

The world of the coordinators of one fingerprint: the marker and cache files, the lease,
and the processes, each of which is born once and dies for good. Beside these the world
keeps a record that no coordinator can see: the claims whose marker has been written,
with their coordinators, and the claims that have been published, the last first.

A machine answers the operations. Of the lease it is promised that it is exclusive and is
freed when its owner dies; of a marker write, that it takes effect inside its call or
not at all – whatever it then reports, except that a success it reports is one. Two
further promises are made only where a result asks for them, by the policy of the
machine (`YasbLimitora.Policy`): that the process table tells the truth, and that the
marker of a coordinator is written and read without the failures that lose a claim.
-/

namespace YasbLimitora

/-- The processes, the coordinators in them, and what the process table shows of them. -/
structure Fleet (I P : Type) where
  proc : I → P
  pid : P → ℕ
  token : P → String
  pid_pos : ∀ p, 0 < pid p

inductive Phase
  | unborn
  | alive
  | dead
deriving DecidableEq

inductive Phase.Ages : Phase → Phase → Prop
  | same (x : Phase) : Ages x x
  | birth : Ages .unborn .alive
  | death : Ages .alive .dead
  | life : Ages .unborn .dead

inductive MarkerFile
  | absent
  /-- Anything but a well-formed document. -/
  | malformed
  | valid (m : Marker)

/-- The file holds exactly the active marker of a claim. -/
def MarkerFile.Owned (f : MarkerFile) (c : RefreshClaim) : Prop :=
  ∃ m, f = .valid m ∧ sameClaim m c

structure World (I P : Type) where
  marker : MarkerFile
  cache : Option ByteArray
  /-- The coordinator that owns the lease. -/
  holder : Option I
  phase : P → Phase
  /-- The claims that took effect, the last first. -/
  claims : List (RefreshClaim × I)
  /-- The claims under which the cache was written, the last first. -/
  published : List RefreshClaim

/-- What a machine promises beyond the lease and the atomicity of writes. -/
structure Policy (I : Type) where
  /-- The process table reports a process missing, or a token not its own, only when it
  is not alive. -/
  truthful : Prop
  /-- Where this holds of a coordinator, no write of a claim takes effect and is then
  reported to have failed, and no marker that is still a claim's own is unreadable when
  that claim is finished. -/
  careful : I → Prop

section Machine

variable {I P : Type} (fleet : Fleet I P) (policy : Policy I) (V : Type)

/-- What the process table may answer, if it tells the truth. -/
def Truthful (w : World I P) (pid : ℕ) : ProcessToken → Prop
  | .unknown => True
  | .missing => ∀ p, fleet.pid p = pid → w.phase p ≠ .alive
  | .token t => ∀ p, fleet.pid p = pid → w.phase p = .alive → fleet.token p = t

/-- What a marker file may be read as. -/
def Seen (i : I) (purpose : Purpose) (f : MarkerFile) : Option Marker × Bool → Prop
  | (none, true) => f = .absent
  | (some m, true) => f = .valid m
  | (m, false) => m = none ∧ ∀ c, purpose = .finishing c → policy.careful i → ¬f.Owned c

/-- The world after a marker write. -/
def World.writeMarker (w : World I P) (i : I) (m : Marker) : Purpose → World I P
  | .claiming c => { w with marker := .valid m, claims := (c, i) :: w.claims }
  | _ => { w with marker := .valid m }

/-- What an operation of a coordinator may answer, and the world it may leave. -/
def answers (i : I) : (o : Op) → World I P → Op.Resp V o → World I P → Prop
  | .acquireKey, w, r, w' =>
    r = .lease ∧ w.holder = none ∧ w' = { w with holder := some i } ∨ r ≠ .lease ∧ w' = w
  | .releaseLease, w, r, w' =>
    w.holder = some i ∧ w' = { w with holder := none } ∨
      w' = w ∧ (r = true → w.holder ≠ some i)
  | .readMarker purpose, w, r, w' => w' = w ∧ Seen policy i purpose w.marker r
  | .writeMarker m purpose, w, r, w' =>
    w' = w.writeMarker i m purpose ∧
        (r = false → policy.careful i → ∀ c, purpose ≠ .claiming c) ∨
      w' = w ∧ r = false
  | .writeCache c envelope, w, r, w' =>
    w' = { w with cache := some envelope, published := c :: w.published } ∨ w' = w ∧ r = false
  | .processToken pid, w, r, w' => w' = w ∧ (policy.truthful → Truthful fleet w pid r)
  | .now, w, _, w' | .utcNow, w, _, w' | .usableNs, w, _, w' | .sleep _, w, _, w'
  | .load, w, _, w' | .closeLease, w, _, w' | .produce _, w, _, w' => w' = w

/-- Processes are born and die, and a lease goes with its process. -/
def passes (w w' : World I P) : Prop :=
  ∃ phase, (∀ p, (w.phase p).Ages (phase p)) ∧
    (w' = { w with phase } ∨ (∃ i, w.holder = some i ∧ phase (fleet.proc i) = .dead) ∧
      w' = { w with phase, holder := none })

/-- The machine of a fleet. -/
def coordinators : Machine I Op (Op.Resp V) (World I P) where
  step := answers fleet policy V
  env := passes fleet
  live i w := w.phase (fleet.proc i) = .alive

/-- What a call returns: its result, unless it raised, and what is remembered. -/
abbrev Returned := Option (SingleFlightResult V) × Memory

variable (publication : Publication)

/-- The next call of a coordinator. -/
def nextCall (i : I) (r : Returned V) : Coordination V (Returned V) :=
  RefreshCoordinator.getOrRefresh (fleet.pid (fleet.proc i)) publication r.2

abbrev CoordinatorConfig := Config I Op (Op.Resp V) (World I P) (Returned V)

/-- Before the first claim: whatever the files hold, no claim has been made, and each
coordinator is idle and remembers nothing. -/
structure Initial (σ : CoordinatorConfig (I := I) (P := P) V) : Prop where
  claims : σ.world.claims = []
  published : σ.world.published = []
  idle : ∀ i, ∃ r, σ.prog i = .ret (r, ⟨none, none⟩)

/-- The configurations reached from an initial one. -/
def Reachable (σ : CoordinatorConfig (I := I) (P := P) V) : Prop :=
  ∃ σ₀, Initial V σ₀ ∧
    (coordinators fleet policy V).Reaches (nextCall fleet V publication) σ₀ σ

end Machine

end YasbLimitora
