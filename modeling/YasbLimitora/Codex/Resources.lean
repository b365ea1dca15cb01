import Mathlib
import YasbLimitora.Lib.Faults

/-!
# Endpoints and the numbers they have

Descriptors are numbers that the operating system hands out again once they are closed. An
endpoint has therefore an identity of its own, a number with a generation, and a registry
(`_codex_resource_core.py`) tells which identity holds a number at present, and which will
never hold one again. An endpoint is closed through the registry, by a closer that may
succeed, ask for a retry, raise, or answer something unknown; a pair closes both of its
endpoints.

The registry is the world of a program, so that a run records what it was when each closer
was invoked.

A number that was closed by another part of the program and handed out again is the danger here: a
close by number would hit a file of somebody else. With identities the close of an endpoint that is
no longer current finds that out and does nothing. The invariant says that what is current was not
retired, and each closer is invoked with an identity that is current at that moment, which it then
retires.
-/

namespace YasbLimitora

namespace Codex

structure FdIdentity where
  number : ℤ
  generation : ℕ
deriving DecidableEq

structure EndpointSpec where
  identity : FdIdentity
  closer : ℕ

inductive ResourceError
  | cleanup
  | indeterminate
  | ownership
  | stale
deriving DecidableEq

inductive CloseOutcome
  | closed
  | retry
deriving DecidableEq

/-- What a closer returns. -/
inductive Returned
  | outcome (o : CloseOutcome)
  | unknown
deriving DecidableEq

/-! ### The registry -/

/-- `_GenerationRegistry`. -/
structure Registry where
  current : ℤ → Option FdIdentity
  retired : Finset FdIdentity

namespace Registry

def empty : Registry := ⟨fun _ => none, ∅⟩

variable (r : Registry) (identity : FdIdentity)

def canRegister : Bool := identity ∉ r.retired ∧ r.current identity.number ≠ some identity

def register : Registry where
  current := Function.update r.current identity.number (some identity)
  retired := match r.current identity.number with
    | some current => insert current r.retired
    | none => r.retired

def isCurrent : Bool := r.current identity.number = some identity

def retire : Registry where
  current := if r.isCurrent identity then Function.update r.current identity.number none else r.current
  retired := insert identity r.retired

end Registry

/-! ### Closing -/

/-- What is done to the registry, and by a closer, when endpoints are closed. -/
inductive CloseOp
  | isCurrent (identity : FdIdentity)
  | retire (identity : FdIdentity)
  | invoke (spec : EndpointSpec)

def CloseOp.Resp : CloseOp → Type
  | .isCurrent _ => Bool
  | .retire _ => Unit
  | .invoke _ => Answer Returned

abbrev Closing (α : Type) := Prog CloseOp CloseOp.Resp α

def isCurrent (identity : FdIdentity) : Closing Bool := Prog.perform (CloseOp.isCurrent identity)

def retire (identity : FdIdentity) : Closing Unit := Prog.perform (CloseOp.retire identity)

def invoke (spec : EndpointSpec) : Closing (Answer Returned) := Prog.perform (CloseOp.invoke spec)

/-- `_GenerationRegistry._close`. -/
def registryClose (spec : EndpointSpec) : Closing (Except ResourceError CloseOutcome) := do
  if !(← isCurrent spec.identity) then return .error .stale
  else match ← invoke spec with
    | .raised => do
      retire spec.identity
      return .error .indeterminate
    | .returned (.outcome .closed) => do
      retire spec.identity
      return .ok .closed
    | .returned (.outcome .retry) => return .ok .retry
    | .returned .unknown => do
      retire spec.identity
      return .error .indeterminate

/-- `_OwnedEndpoint`, by its state. It keeps its specification until it is closed, and the
error that ended it. -/
inductive Endpoint
  | opened (spec : EndpointSpec)
  | closing (spec : EndpointSpec)
  | broken (spec : EndpointSpec)
  | terminal (spec : EndpointSpec) (error : ResourceError)
  | closed

namespace Endpoint

def isTerminal : Endpoint → Bool
  | .terminal _ _ => true
  | _ => false

/-- `_OwnedEndpoint._validate_transfer`. -/
def validTransfer (r : Registry) : Endpoint → Bool
  | .opened spec => r.isCurrent spec.identity
  | _ => false

/-- An endpoint that is not yet closed is closed through the registry. -/
def closeOpen (spec : EndpointSpec) : Closing (Except ResourceError Unit × Endpoint) := do
  match ← registryClose spec with
  | .error error => return (.error error, .terminal spec error)
  | .ok .retry => return (.error .cleanup, .broken spec)
  | .ok .closed => return (.ok (), .closed)

/-- `_OwnedEndpoint._close`. -/
def close : Endpoint → Closing (Except ResourceError Unit × Endpoint)
  | .closed => return (.ok (), .closed)
  | .terminal spec error => return (.error error, .terminal spec error)
  | .closing spec => return (.error .ownership, .closing spec)
  | .opened spec => closeOpen spec
  | .broken spec => closeOpen spec

end Endpoint

inductive PairState
  | opened
  | closing
  | broken
  | closed
deriving DecidableEq

/-- `_IpcPair`. -/
structure IpcPair where
  read : Endpoint
  write : Endpoint
  owner : Option ℕ
  state : PairState

namespace IpcPair

/-- `_IpcPair._transfer`. -/
def transfer (p : IpcPair) (r : Registry) (previous current : Option ℕ) : Except ResourceError IpcPair :=
  if p.state ≠ .opened ∨ p.owner ≠ previous ∨ current = none then .error .ownership
  else if !(p.read.validTransfer r && p.write.validTransfer r) then .error .ownership
  else .ok { p with owner := current }

/-- An endpoint of a pair, unless it is terminal, with the error that is caught. -/
def closeEndpoint (e : Endpoint) : Closing (Option ResourceError × Endpoint) :=
  if e.isTerminal then return (none, e)
  else do
    match ← e.close with
    | (.ok (), e) => return (none, e)
    | (.error error, e) => return (some error, e)

/-- The error that `_IpcPair._close` raises of those it caught. -/
def raisedOf (errors : List ResourceError) : Option ResourceError :=
  if .indeterminate ∈ errors then some .indeterminate
  else if .cleanup ∈ errors then some .cleanup
  else errors.head?

/-- `_IpcPair._close`. -/
def close (p : IpcPair) (owner : Option ℕ) : Closing (Except ResourceError Unit × IpcPair) :=
  if p.state = .closed then return (.ok (), p)
  else if p.state = .closing ∨ owner ≠ p.owner then return (.error .ownership, p)
  else do
    let (first, write) ← closeEndpoint p.write
    let (second, read) ← closeEndpoint p.read
    match raisedOf (first.toList ++ second.toList) with
    | some error => return (.error error, ⟨read, write, p.owner, .broken⟩)
    | none => return (.ok (), ⟨read, write, none, .closed⟩)

end IpcPair

/-- `_new_ipc_pair`. -/
def newIpcPair (read write : EndpointSpec) (owner : Option ℕ) (r : Registry) :
    Except ResourceError IpcPair × Registry :=
  if owner = none ∨ read.identity.number = write.identity.number then (.error .ownership, r)
  else if !r.canRegister read.identity || !r.canRegister write.identity then (.error .ownership, r)
  else (.ok ⟨.opened read, .opened write, owner, .opened⟩, (r.register read.identity).register write.identity)

/-! ### Runs -/

/-- The closers answer these. -/
def closers (answers : ℕ → Answer Returned) : Schedule CloseOp CloseOp.Resp Registry where
  others _ r := r
  answer n
    | .isCurrent identity, r => (r.isCurrent identity, r)
    | .retire identity, r => ((), r.retire identity)
    | .invoke _, r => (answers n, r)

abbrev CloseEvent := Event CloseOp CloseOp.Resp Registry

/-- A pair, with the identities its endpoints were registered by. -/
structure Held where
  read : FdIdentity
  write : FdIdentity
  pair : IpcPair

/-- The pairs there are, and all that was done to close them. -/
structure Resources where
  registry : Registry
  held : List Held
  events : List CloseEvent

namespace Resources

def init : Resources := ⟨.empty, [], []⟩

inductive Call
  | new (read write : EndpointSpec) (owner : Option ℕ)
  | transfer (i : ℕ) (previous current : Option ℕ)
  | close (i : ℕ) (owner : Option ℕ) (answers : ℕ → Answer Returned)

/-- One call. The numbers of a pair are whatever the system hands out. -/
def step (σ : Resources) : Call → Resources
  | .new read write owner => match newIpcPair read write owner σ.registry with
    | (.ok pair, r) => { σ with registry := r, held := σ.held ++ [⟨read.identity, write.identity, pair⟩] }
    | (.error _, r) => { σ with registry := r }
  | .transfer i previous current => match σ.held[i]? with
    | none => σ
    | some h => match h.pair.transfer σ.registry previous current with
      | .ok pair => { σ with held := σ.held.set i { h with pair := pair } }
      | .error _ => σ
  | .close i owner answers => match σ.held[i]? with
    | none => σ
    | some h =>
      let ran := Prog.run (closers answers) 0 (h.pair.close owner) σ.registry
      ⟨ran.world, σ.held.set i { h with pair := ran.result.2 }, σ.events ++ ran.events⟩

/-- Calls one after the other. -/
def run (σ : Resources) (calls : List Call) : Resources := calls.foldl step σ

end Resources

/-! ### The registry -/

namespace Registry

/-- A number is held by an identity that has it, and that is not retired. -/
structure Inv (r : Registry) : Prop where
  number : ∀ n identity, r.current n = some identity → identity.number = n
  live : ∀ n identity, r.current n = some identity → identity ∉ r.retired

variable {r : Registry} {identity other : FdIdentity}

/-- A registry without endpoints keeps its invariant. -/
theorem inv_empty : Inv empty := ⟨nofun, nofun⟩

/-- An identity is current if its number is registered for it. -/
theorem isCurrent_iff : r.isCurrent identity = true ↔ r.current identity.number = some identity :=
  decide_eq_true_iff

theorem retired_subset_retire : r.retired ⊆ (r.retire identity).retired := Finset.subset_insert _ _

/-- Retiring an identity registers nothing: what is current after it was so before. -/
theorem current_of_retire {n : ℤ} (h : (r.retire identity).current n = some other) :
    r.current n = some other := by
  unfold retire at h
  dsimp only at h
  split at h
  · by_cases hn : n = identity.number
    · subst hn
      rw [Function.update_self] at h
      cases h
    · rwa [Function.update_of_ne hn] at h
  · exact h

/-- A retired identity is not current, whatever was. -/
theorem current_retire_self : (r.retire identity).current identity.number ≠ some identity := by
  unfold retire
  dsimp only
  split
  · rw [Function.update_self]
    exact nofun
  · rename_i hcurrent
    exact fun h => hcurrent (isCurrent_iff.2 h)

/-- Retiring an identity keeps the invariant. -/
theorem Inv.retire (h : r.Inv) (identity : FdIdentity) : (r.retire identity).Inv where
  number n other hother := h.number n other (current_of_retire hother)
  live n other hother := by
    have hbefore := current_of_retire hother
    refine Finset.mem_insert.not.2 (not_or.2 ⟨?_, h.live n other hbefore⟩)
    rintro rfl
    obtain rfl := h.number n other hbefore
    exact current_retire_self hother

theorem retired_subset_register : r.retired ⊆ (r.register identity).retired := by
  unfold register
  dsimp only
  split
  · exact Finset.subset_insert _ _
  · exact Finset.Subset.refl _

/-- An identity may be registered if it was not retired, and is not current. -/
theorem canRegister_iff :
    r.canRegister identity = true ↔ identity ∉ r.retired ∧ r.current identity.number ≠ some identity :=
  decide_eq_true_iff

theorem register_current_self : (r.register identity).current identity.number = some identity :=
  Function.update_self _ _ _

/-- To register an identity is to take its number, and no other. -/
theorem register_current_of_ne {n : ℤ} (h : n ≠ identity.number) :
    (r.register identity).current n = r.current n := Function.update_of_ne h _ _

/-- What is retired by a registration was current. -/
theorem mem_retired_register {id : FdIdentity} (h : id ∈ (r.register identity).retired) :
    id ∈ r.retired ∨ r.current identity.number = some id := by
  unfold register at h
  dsimp only at h
  split at h
  · rename_i current hcurrent
    rcases Finset.mem_insert.1 h with rfl | hmem
    · exact .inr hcurrent
    · exact .inl hmem
  · exact .inl h

/-- Registering an identity that may be registered keeps the invariant. -/
theorem Inv.register (h : r.Inv) (hnew : r.canRegister identity = true) : (r.register identity).Inv where
  number n other hother := by
    by_cases hn : n = identity.number
    · subst hn
      rw [register_current_self] at hother
      rw [Option.some.inj hother]
    · rw [register_current_of_ne hn] at hother
      exact h.number n other hother
  live n other hother hretired := by
    obtain ⟨hfresh, hcurrent⟩ := canRegister_iff.1 hnew
    by_cases hn : n = identity.number
    · subst hn
      rw [register_current_self] at hother
      obtain rfl := Option.some.inj hother
      exact (mem_retired_register hretired).elim hfresh hcurrent
    · rw [register_current_of_ne hn] at hother
      rcases mem_retired_register hretired with hretired | hother'
      · exact h.live n other hother hretired
      · exact hn ((h.number n other hother).symm.trans (h.number _ other hother'))

/-- The second identity of a pair may still be registered after the first, if their numbers differ. -/
theorem Inv.canRegister_register (h : r.Inv) (hother : r.canRegister other = true)
    (hn : other.number ≠ identity.number) : (r.register identity).canRegister other = true := by
  obtain ⟨hfresh, hcurrent⟩ := canRegister_iff.1 hother
  refine canRegister_iff.2 ⟨fun hretired => ?_, ?_⟩
  · rcases mem_retired_register hretired with hretired | hheld
    · exact hfresh hretired
    · exact hn (h.number _ _ hheld)
  · rwa [register_current_of_ne hn]

/-- An identity stays with its number, or is retired. -/
theorem current_or_retired_register {id : FdIdentity}
    (h : r.current id.number = some id ∨ id ∈ r.retired) :
    (r.register identity).current id.number = some id ∨ id ∈ (r.register identity).retired := by
  rcases h with hcurrent | hretired
  · by_cases hn : id.number = identity.number
    · refine .inr ?_
      rw [Registry.register]
      dsimp only
      rw [← hn, hcurrent]
      exact Finset.mem_insert_self _ _
    · refine .inl ?_
      rwa [register_current_of_ne hn]
  · exact .inr (retired_subset_register hretired)

/-- No identity is forgotten where another one is retired. -/
theorem current_or_retired_retire {id : FdIdentity}
    (h : r.current id.number = some id ∨ id ∈ r.retired) :
    (r.retire identity).current id.number = some id ∨ id ∈ (r.retire identity).retired := by
  rcases h with hcurrent | hretired
  · by_cases hid : id = identity
    · exact .inr (Finset.mem_insert.2 (.inl hid))
    · refine .inl ?_
      unfold retire
      dsimp only
      split
      · rename_i hother
        refine (Function.update_of_ne ?_ _ _).trans hcurrent
        intro hn
        rw [isCurrent_iff, ← hn, hcurrent] at hother
        exact hid (Option.some.inj hother)
      · exact hcurrent
  · exact .inr (retired_subset_retire hretired)

end Registry

/-! ### What is done by closers -/

/-- The closer that was invoked by an event, and its answer. -/
def invocation (e : CloseEvent) : Option (FdIdentity × Answer Returned) :=
  match e with
  | ⟨.invoke spec, answer, _, _⟩ => some (spec.identity, answer)
  | _ => none

/-- A closer that asks to be tried again has not closed its descriptor. -/
def asksRetry (answer : Answer Returned) : Prop := answer = .returned (.outcome .retry)

/-- **What the closers are invoked for**, from one registry to another: the identity that holds
its number at that time, and none that was retired before, or whose closer has answered
other than to be tried again. -/
structure Sound (r : Registry) (events : List CloseEvent) (r' : Registry) : Prop where
  grows : r.retired ⊆ r'.retired
  current : ∀ e ∈ events, ∀ id answer, invocation e = some (id, answer) → e.before.current id.number = some id
  live : ∀ e ∈ events, ∀ id answer, invocation e = some (id, answer) → id ∉ r.retired
  last : events.Pairwise fun e later => ∀ id answer answer', invocation e = some (id, answer) →
    invocation later = some (id, answer') → asksRetry answer
  retired : ∀ e ∈ events, ∀ id answer, invocation e = some (id, answer) → asksRetry answer ∨ id ∈ r'.retired

namespace Sound

variable {r r' r'' : Registry} {events more : List CloseEvent}

/-- Where nothing is closed, a registry may only have retired more. -/
theorem of_nothing (h : r.retired ⊆ r'.retired) : Sound r [] r' := ⟨h, nofun, nofun, .nil, nofun⟩

theorem refl (r : Registry) : Sound r [] r := of_nothing (Finset.Subset.refl _)

/-- What is sound of two runs, one after the other, is sound of both together. -/
theorem trans (h : Sound r events r') (h' : Sound r' more r'') : Sound r (events ++ more) r'' where
  grows := h.grows.trans h'.grows
  current := List.forall_mem_append.2 ⟨h.current, h'.current⟩
  live := List.forall_mem_append.2
    ⟨h.live, fun e he id answer hid hretired => h'.live e he id answer hid (h.grows hretired)⟩
  last := by
    refine List.pairwise_append.2 ⟨h.last, h'.last, ?_⟩
    intro e he later hlater id answer answer' hid hid'
    rcases h.retired e he id answer hid with hretry | hretired
    · exact hretry
    · exact absurd hretired (h'.live later hlater id answer' hid')
  retired := by
    refine List.forall_mem_append.2 ⟨?_, h'.retired⟩
    intro e he id answer hid
    exact (h.retired e he id answer hid).imp_right fun hretired => h'.grows hretired

end Sound

/-- An identity was registered at some time. -/
def Registered (r : Registry) (id : FdIdentity) : Prop := r.current id.number = some id ∨ id ∈ r.retired

/-- **What closing keeps**, and something of what it comes to. -/
def Closes {α : Type} (p : Closing α) (r : Registry) (Q : α → Registry → Prop) : Prop :=
  Prog.Meets (Set.range closers) (· = r) p fun a r' events =>
    r'.Inv ∧ Sound r events r' ∧ (∀ id, Registered r id → Registered r' id) ∧ Q a r'

namespace Closes

variable {α β : Type} {r : Registry} {p : Closing α} {Q : α → Registry → Prop}

/-- A program that does nothing closes nothing. -/
theorem ret {a : α} (hr : r.Inv) (h : Q a r) : Closes (.ret a) r Q := by
  refine Prog.Meets.ret ?_
  rintro _ rfl
  exact ⟨hr, .refl _, fun _ h => h, h⟩

/-- Programs that close what they should, one after another, close what they should together. -/
theorem bind {f : α → Closing β} {R : β → Registry → Prop} (h : Closes p r Q)
    (hf : ∀ a r', r'.Inv → r.retired ⊆ r'.retired → (∀ id, Registered r id → Registered r' id) → Q a r' →
      Closes (f a) r' R) : Closes (p >>= f) r R := by
  refine Prog.Meets.bind (Prog.Meets.conseq h ?_)
  rintro a r' events ⟨hr', hsound, hkeeps, ha⟩
  refine ⟨(· = r'), rfl, Prog.Meets.conseq (hf a r' hr' hsound.grows hkeeps ha) ?_⟩
  rintro b r'' more ⟨hr'', hmore, hkeeps', hb⟩
  exact ⟨hr'', hsound.trans hmore, fun id h => hkeeps' id (hkeeps id h), hb⟩

/-- What a program comes to may be weakened. -/
theorem conseq {R : α → Registry → Prop} (h : Closes p r Q) (hQ : ∀ a r', Q a r' → R a r') : Closes p r R :=
  Prog.Meets.conseq h fun _ _ _ hx => ⟨hx.1, hx.2.1, hx.2.2.1, hQ _ _ hx.2.2.2⟩

end Closes

variable {r r' : Registry} {spec : EndpointSpec} {answer : Answer Returned}

/-- A closer that is invoked for the current identity, and asks to be tried again. -/
theorem sound_retry (hr : r.Inv) (hcurrent : r.isCurrent spec.identity = true) (hretry : asksRetry answer) :
    Sound r [⟨.isCurrent spec.identity, true, r, r⟩, ⟨.invoke spec, answer, r, r⟩] r where
  grows := Finset.Subset.refl _
  current := by
    simpa [invocation] using Registry.isCurrent_iff.1 hcurrent
  live := by
    simpa [invocation] using hr.live _ _ (Registry.isCurrent_iff.1 hcurrent)
  last := by simp [invocation]
  retired := by simp [invocation, hretry]

/-- A closer that is invoked for the current identity, which is retired then. -/
theorem sound_retire (hr : r.Inv) (hcurrent : r.isCurrent spec.identity = true) :
    Sound r [⟨.isCurrent spec.identity, true, r, r⟩, ⟨.invoke spec, answer, r, r⟩,
      ⟨.retire spec.identity, (), r, r.retire spec.identity⟩] (r.retire spec.identity) where
  grows := Registry.retired_subset_retire
  current := by
    simpa [invocation] using Registry.isCurrent_iff.1 hcurrent
  live := by
    simpa [invocation] using hr.live _ _ (Registry.isCurrent_iff.1 hcurrent)
  last := by simp [invocation]
  retired := by simp [invocation, Registry.retire]

section

variable {α : Type} {answers : ℕ → Answer Returned} {n : ℕ} {id : FdIdentity}

/-- To look whether an identity is current changes nothing, and closes nothing. -/
theorem run_isCurrent {f : Bool → Closing α} : Prog.run (closers answers) n (isCurrent id >>= f) r =
    let rest := Prog.run (closers answers) (n + 1) (f (r.isCurrent id)) r
    ⟨rest.result, rest.world, ⟨.isCurrent id, r.isCurrent id, r, r⟩ :: rest.events⟩ := rfl

/-- To retire an identity closes nothing. -/
theorem run_retire {f : Unit → Closing α} : Prog.run (closers answers) n (retire id >>= f) r =
    let rest := Prog.run (closers answers) (n + 1) (f ()) (r.retire id)
    ⟨rest.result, rest.world, ⟨.retire id, (), r, r.retire id⟩ :: rest.events⟩ := rfl

/-- To call the closer of an endpoint is the one event that there is, with the answer of its number. -/
theorem run_invoke {f : Answer Returned → Closing α} : Prog.run (closers answers) n (invoke spec >>= f) r =
    let rest := Prog.run (closers answers) (n + 1) (f (answers n)) r
    ⟨rest.result, rest.world, ⟨.invoke spec, answers n, r, r⟩ :: rest.events⟩ := rfl

end

/-- The registry closes an endpoint that is current, and has retired it unless it must be tried again. -/
theorem registryClose_closes (hr : r.Inv) :
    Closes (registryClose spec) r fun result r' =>
      result ≠ .ok .retry → Registered r spec.identity → spec.identity ∈ r'.retired := by
  rintro _ ⟨answers, rfl⟩ n w hw
  rw [show w = r from hw, registryClose, run_isCurrent]
  by_cases hcurrent : r.isCurrent spec.identity = true
  · -- Whatever the closer answers but to be tried again, its identity is retired.
    have hretired : spec.identity ∈ (r.retire spec.identity).retired := Finset.mem_insert_self _ _
    have hkeeps : ∀ id, Registered r id → Registered (r.retire spec.identity) id :=
      fun id => Registry.current_or_retired_retire
    rw [hcurrent, Bool.not_true, if_neg Bool.false_ne_true, run_invoke]
    rcases answers (n + 1) with _ | (_ | _) | _
    · exact ⟨hr.retire _, sound_retire hr hcurrent, hkeeps, fun _ _ => hretired⟩
    · exact ⟨hr.retire _, sound_retire hr hcurrent, hkeeps, fun _ _ => hretired⟩
    · exact ⟨hr, sound_retry hr hcurrent rfl, fun _ h => h, fun h => absurd rfl h⟩
    · exact ⟨hr.retire _, sound_retire hr hcurrent, hkeeps, fun _ _ => hretired⟩
  · rw [Bool.eq_false_iff.2 hcurrent, Bool.not_false, if_pos rfl]
    refine ⟨hr, ⟨Finset.Subset.refl _, ?_, ?_, List.pairwise_singleton _ _, ?_⟩, fun _ h => h, ?_⟩
    · exact List.forall_mem_singleton.2 nofun
    · exact List.forall_mem_singleton.2 nofun
    · exact List.forall_mem_singleton.2 nofun
    · intro _ hregistered
      exact hregistered.resolve_left fun h => hcurrent (Registry.isCurrent_iff.2 h)

/-! ### Endpoints and pairs -/

/-- An endpoint that will not be closed any more. -/
def Endpoint.isOver : Endpoint → Bool
  | .terminal _ _ => true
  | .closed => true
  | _ => false

/-- An endpoint has the identity it was registered by, which is retired once it is over. -/
def Endpoint.Fits (r : Registry) (id : FdIdentity) : Endpoint → Prop
  | .opened spec => spec.identity = id
  | .closing spec => spec.identity = id
  | .broken spec => spec.identity = id
  | .terminal _ _ => id ∈ r.retired
  | .closed => id ∈ r.retired

variable {id : FdIdentity} {e : Endpoint}

/-- An endpoint that was over stays so where more is retired. -/
theorem Endpoint.Fits.mono (h : e.Fits r id) (hgrows : r.retired ⊆ r'.retired) : e.Fits r' id := by
  cases e with
  | opened spec => exact h
  | closing spec => exact h
  | broken spec => exact h
  | terminal spec error => exact hgrows h
  | closed => exact hgrows h

/-- The identity of an endpoint that is over is retired. -/
theorem Endpoint.Fits.retired (h : e.Fits r id) (hover : e.isOver = true) : id ∈ r.retired := by
  cases e with
  | terminal spec error => exact h
  | closed => exact h
  | _ => cases hover

/-- An open endpoint is closed through the registry, and is over if that succeeded. -/
theorem closeOpen_closes (hr : r.Inv) (hid : spec.identity = id) (hregistered : Registered r id) :
    Closes (Endpoint.closeOpen spec) r fun x r' => x.2.Fits r' id ∧ (x.1 = .ok () → x.2.isOver = true) := by
  subst hid
  refine (registryClose_closes hr).bind fun result r' hr' _ _ hresult => ?_
  match result with
  | .error error => exact .ret hr' ⟨hresult nofun hregistered, nofun⟩
  | .ok .retry => exact .ret hr' ⟨rfl, nofun⟩
  | .ok .closed => exact .ret hr' ⟨hresult nofun hregistered, fun _ => rfl⟩

/-- An endpoint is closed at most once, whatever its state is when it is asked to. -/
theorem endpointClose_closes (hr : r.Inv) (h : e.Fits r id) (hregistered : Registered r id) :
    Closes e.close r fun x r' => x.2.Fits r' id ∧ (x.1 = .ok () → x.2.isOver = true) := by
  cases e with
  | opened spec => exact closeOpen_closes hr h hregistered
  | closing spec => exact .ret hr ⟨h, nofun⟩
  | broken spec => exact closeOpen_closes hr h hregistered
  | terminal spec error => exact .ret hr ⟨h, nofun⟩
  | closed => exact .ret hr ⟨h, fun _ => rfl⟩

/-- A pair closes each of its endpoints so, and keeps the error of the one that failed. -/
theorem closeEndpoint_closes (hr : r.Inv) (h : e.Fits r id) (hregistered : Registered r id) :
    Closes (IpcPair.closeEndpoint e) r fun x r' => x.2.Fits r' id ∧ (x.1 = none → x.2.isOver = true) := by
  unfold IpcPair.closeEndpoint
  split
  · rename_i hterminal
    refine .ret hr ⟨h, fun _ => ?_⟩
    cases e with
    | terminal spec error => rfl
    | _ => cases hterminal
  · refine (endpointClose_closes hr h hregistered).bind fun x r' hr' _ _ hx => ?_
    obtain ⟨result, e'⟩ := x
    cases result with
    | ok u => exact .ret hr' ⟨hx.1, fun _ => hx.2 rfl⟩
    | error error => exact .ret hr' ⟨hx.1, nofun⟩

/-- A pair raises nothing only if no endpoint failed. -/
theorem raisedOf_eq_none {errors : List ResourceError} (h : IpcPair.raisedOf errors = none) : errors = [] := by
  unfold IpcPair.raisedOf at h
  split at h
  · cases h
  split at h
  · cases h
  · exact List.head?_eq_none_iff.1 h

/-- A pair has the identities it was registered by, and is over with both of its endpoints. -/
structure Held.Inv (r : Registry) (h : Held) : Prop where
  read : Registered r h.read
  write : Registered r h.write
  fitsRead : h.pair.read.Fits r h.read
  fitsWrite : h.pair.write.Fits r h.write
  ended : h.pair.state = .closed → h.pair.read.isOver = true ∧ h.pair.write.isOver = true

variable {h : Held}

/-- A pair that is closed has both of its endpoints over. -/
theorem pairClose_closes (hr : r.Inv) (hinv : h.Inv r) (owner : Option ℕ) :
    Closes (h.pair.close owner) r fun x r' => x.2.read.Fits r' h.read ∧ x.2.write.Fits r' h.write ∧
      (x.2.state = .closed → x.2.read.isOver = true ∧ x.2.write.isOver = true) := by
  unfold IpcPair.close
  split
  · exact .ret hr ⟨hinv.fitsRead, hinv.fitsWrite, hinv.ended⟩
  split
  · exact .ret hr ⟨hinv.fitsRead, hinv.fitsWrite, hinv.ended⟩
  refine (closeEndpoint_closes hr hinv.fitsWrite hinv.write).bind ?_
  rintro ⟨first, write⟩ r' hr' hgrows hkeeps ⟨hwrite, hfirst⟩
  refine (closeEndpoint_closes hr' (hinv.fitsRead.mono hgrows) (hkeeps _ hinv.read)).bind ?_
  rintro ⟨second, read⟩ r'' hr'' hgrows' _ ⟨hread, hsecond⟩
  dsimp only
  split
  · exact .ret hr'' ⟨hread, hwrite.mono hgrows', nofun⟩
  · rename_i hraised
    obtain ⟨hnone, hnone'⟩ := List.append_eq_nil_iff.1 (raisedOf_eq_none hraised)
    refine .ret hr'' ⟨hread, hwrite.mono hgrows', fun _ => ⟨hsecond ?_, hfirst ?_⟩⟩
    · exact Option.toList_eq_nil_iff.1 hnone'
    · exact Option.toList_eq_nil_iff.1 hnone

/-! ### Calls -/

/-- A pair that is refused registers nothing. -/
theorem newIpcPair_refused {read write : EndpointSpec} {owner : Option ℕ} {error : ResourceError}
    (h : (newIpcPair read write owner r).1 = .error error) : (newIpcPair read write owner r).2 = r := by
  unfold newIpcPair at h ⊢
  split
  · rfl
  split
  · rfl
  · rename_i howner hregister
    rw [if_neg howner, if_neg hregister] at h
    cases h

/-- What holds of a pair still holds where more is retired and nothing is forgotten. -/
theorem Held.Inv.mono (hinv : h.Inv r) (hgrows : r.retired ⊆ r'.retired)
    (hkeeps : ∀ id, Registered r id → Registered r' id) : h.Inv r' where
  read := hkeeps _ hinv.read
  write := hkeeps _ hinv.write
  fitsRead := hinv.fitsRead.mono hgrows
  fitsWrite := hinv.fitsWrite.mono hgrows
  ended := hinv.ended

/-- **What every sequence of calls keeps.** -/
structure Resources.Inv (σ : Resources) : Prop where
  registry : σ.registry.Inv
  held : ∀ h ∈ σ.held, h.Inv σ.registry

/-- What a call does: the closers that it invokes, and the identities that stay registered. -/
structure Resources.Leads (σ τ : Resources) : Prop where
  inv : τ.Inv
  sound : ∃ new, τ.events = σ.events ++ new ∧ Sound σ.registry new τ.registry

namespace Resources

variable {σ τ : Resources}

theorem Inv.init : Resources.init.Inv := ⟨Registry.inv_empty, nofun⟩

theorem Inv.leads (hσ : σ.Inv) : σ.Leads σ := ⟨hσ, [], (List.append_nil _).symm, .refl _⟩

/-- A call after which a pair is another that still has its identities. -/
theorem leads_set {i : ℕ} {h h' : Held} {r : Registry} {new : List CloseEvent} (hσ : σ.Inv)
    (hi : σ.held[i]? = some h) (hr : r.Inv) (hsound : Sound σ.registry new r)
    (hkeeps : ∀ id, Registered σ.registry id → Registered r id) (hh : h.Inv σ.registry → h'.Inv r) :
    σ.Leads ⟨r, σ.held.set i h', σ.events ++ new⟩ := by
  refine ⟨⟨hr, ?_⟩, new, rfl, hsound⟩
  intro g hg
  rcases List.mem_or_eq_of_mem_set hg with hmem | rfl
  · exact (hσ.held g hmem).mono hsound.grows hkeeps
  · exact hh (hσ.held h (List.mem_of_getElem? hi))

/-- A new pair is registered of what may be, and closes nothing. -/
theorem leads_new (hσ : σ.Inv) (read write : EndpointSpec) (owner : Option ℕ) :
    σ.Leads (σ.step (.new read write owner)) := by
  rcases hnew : newIpcPair read write owner σ.registry with ⟨error | pair, r⟩
  · have hrefused : (newIpcPair read write owner σ.registry).2 = σ.registry :=
      newIpcPair_refused (congrArg Prod.fst hnew)
    obtain rfl : r = σ.registry := (congrArg Prod.snd hnew).symm.trans hrefused
    simp only [step, hnew]
    exact hσ.leads
  · simp only [step, hnew]
    unfold newIpcPair at hnew
    split at hnew
    · cases hnew
    split at hnew
    · cases hnew
    · rename_i howner hregister
      obtain ⟨hpair, rfl⟩ := Prod.mk.inj hnew
      obtain rfl := Except.ok.inj hpair
      simp only [Bool.or_eq_true, Bool.not_eq_true', not_or, Bool.not_eq_false] at hregister
      have hread := hσ.registry.register hregister.1
      have hnumber : write.identity.number ≠ read.identity.number := fun h => howner (.inr h.symm)
      have hwrite := hread.register (hσ.registry.canRegister_register hregister.2 hnumber)
      have hkeeps : ∀ id, Registered σ.registry id →
          Registered ((σ.registry.register read.identity).register write.identity) id :=
        fun id hid => Registry.current_or_retired_register (Registry.current_or_retired_register hid)
      have hgrows : σ.registry.retired ⊆
          ((σ.registry.register read.identity).register write.identity).retired :=
        Registry.retired_subset_register.trans Registry.retired_subset_register
      refine ⟨⟨hwrite, ?_⟩, [], (List.append_nil _).symm, .of_nothing hgrows⟩
      refine List.forall_mem_append.2 ⟨fun h hh => (hσ.held h hh).mono hgrows hkeeps, ?_⟩
      refine List.forall_mem_singleton.2 ⟨?_, .inl Registry.register_current_self, rfl, rfl, nofun⟩
      exact Registry.current_or_retired_register (.inl Registry.register_current_self)

/-- A pair that changes hands closes nothing. -/
theorem leads_transfer (hσ : σ.Inv) (i : ℕ) (previous current : Option ℕ) :
    σ.Leads (σ.step (.transfer i previous current)) := by
  cases hi : σ.held[i]? with
  | none =>
    simp only [step, hi]
    exact hσ.leads
  | some h =>
    simp only [step, hi]
    cases htransfer : h.pair.transfer σ.registry previous current with
    | error error => exact hσ.leads
    | ok pair =>
      unfold IpcPair.transfer at htransfer
      split at htransfer
      · cases htransfer
      split at htransfer
      · cases htransfer
      · obtain rfl := Except.ok.inj htransfer
        have hset : σ.Leads ⟨σ.registry, σ.held.set i { h with pair := { h.pair with owner := current } },
            σ.events ++ []⟩ := by
          refine leads_set hσ hi hσ.registry (.refl _) (fun _ h => h) fun hinv => ?_
          exact ⟨hinv.read, hinv.write, hinv.fitsRead, hinv.fitsWrite, hinv.ended⟩
        rwa [List.append_nil] at hset

/-- The close of a pair closes what is its own. -/
theorem leads_close (hσ : σ.Inv) (i : ℕ) (owner : Option ℕ) (answers : ℕ → Answer Returned) :
    σ.Leads (σ.step (.close i owner answers)) := by
  cases hi : σ.held[i]? with
  | none =>
    simp only [step, hi]
    exact hσ.leads
  | some h =>
    simp only [step, hi]
    have hinv := hσ.held h (List.mem_of_getElem? hi)
    obtain ⟨hr, hsound, hkeeps, hread, hwrite, hended⟩ :=
      pairClose_closes hσ.registry hinv owner (closers answers) ⟨answers, rfl⟩ 0 σ.registry rfl
    refine leads_set hσ hi hr hsound hkeeps fun _ => ?_
    exact ⟨hkeeps _ hinv.read, hkeeps _ hinv.write, hread, hwrite, hended⟩

/-- **One call** closes only what is registered, and nothing twice. -/
theorem leads_step (hσ : σ.Inv) : ∀ call, σ.Leads (σ.step call)
  | .new read write owner => leads_new hσ read write owner
  | .transfer i previous current => leads_transfer hσ i previous current
  | .close i owner answers => leads_close hσ i owner answers

/-- What calls close, one after another, they close together. -/
theorem Leads.trans {υ : Resources} (h : σ.Leads τ) (h' : τ.Leads υ) : σ.Leads υ := by
  obtain ⟨new, hnew, hsound⟩ := h.sound
  obtain ⟨more, hmore, hsound'⟩ := h'.sound
  refine ⟨h'.inv, new ++ more, ?_, hsound.trans hsound'⟩
  rw [hmore, hnew, List.append_assoc]

/-- **A run**, from any call to any later one. -/
theorem leads_run (hσ : σ.Inv) (calls : List Call) : σ.Leads (σ.run calls) := by
  induction calls generalizing σ with
  | nil => exact hσ.leads
  | cons call calls ih =>
    have hstep := leads_step hσ call
    exact hstep.trans (ih hstep.inv)

/-- An identity of a pair that is over: its endpoint or the pair is closed, or ended otherwise,
or another identity holds its number, or none does. -/
def Past (σ : Resources) (h : Held) (id : FdIdentity) : Prop :=
  id = h.read ∧ h.pair.read.isOver = true ∨ id = h.write ∧ h.pair.write.isOver = true ∨
    (id = h.read ∨ id = h.write) ∧ (h.pair.state = .closed ∨ σ.registry.current id.number ≠ some id)

/-- What a pair that is over had is retired. -/
theorem Inv.retired (hσ : σ.Inv) {h : Held} (hh : h ∈ σ.held) {id : FdIdentity} (hpast : σ.Past h id) :
    id ∈ σ.registry.retired := by
  have hinv := hσ.held h hh
  rcases hpast with ⟨rfl, hover⟩ | ⟨rfl, hover⟩ | ⟨rfl | rfl, hclosed | hother⟩
  · exact hinv.fitsRead.retired hover
  · exact hinv.fitsWrite.retired hover
  · exact hinv.fitsRead.retired (hinv.ended hclosed).1
  · exact hinv.read.resolve_left hother
  · exact hinv.fitsWrite.retired (hinv.ended hclosed).2
  · exact hinv.write.resolve_left hother

/-- **A closer is invoked only for the identity that holds the number**, and never again once
it has closed its descriptor, raised, or answered something unknown, or its owner is over:
whatever is called in whatever order, whatever numbers are handed out, and whatever the
closers answer. A pair that is refused is not registered. -/
theorem endpoints_safe (calls more : List Call) :
    (∀ e ∈ (init.run calls).events, ∀ id answer, invocation e = some (id, answer) →
        e.before.current id.number = some id) ∧
      ((init.run calls).events.Pairwise fun e later => ∀ id answer answer',
        invocation e = some (id, answer) → invocation later = some (id, answer') → asksRetry answer) ∧
      (∃ new, ((init.run calls).run more).events = (init.run calls).events ++ new ∧
        ∀ h ∈ (init.run calls).held, ∀ id, (init.run calls).Past h id →
          ∀ e ∈ new, ∀ answer, invocation e ≠ some (id, answer)) ∧
      ∀ read write owner error, (newIpcPair read write owner (init.run calls).registry).1 = .error error →
        (newIpcPair read write owner (init.run calls).registry).2 = (init.run calls).registry := by
  have hrun := leads_run .init calls
  obtain ⟨events, hevents, hsound⟩ := hrun.sound
  obtain ⟨new, hnew, hlater⟩ := (leads_run hrun.inv more).sound
  obtain rfl : (init.run calls).events = events := hevents
  refine ⟨hsound.current, hsound.last, ⟨new, hnew, ?_⟩, fun _ _ _ _ => newIpcPair_refused⟩
  intro h hh id hpast e he answer hid
  exact hlater.live e he id answer hid (hrun.inv.retired hh hpast)

end Resources

end Codex

end YasbLimitora
