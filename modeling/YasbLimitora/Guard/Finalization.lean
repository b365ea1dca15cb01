import Mathlib
import YasbLimitora.ConfigLock.Program
import YasbLimitora.Coordinator.Program
import YasbLimitora.Lib.Faults

/-!
# Giving up the lease of a guard

The three ways in which a `GuardLease` is given up: `_close_lease` of the cache,
`_release_provider_lease` of the worker, and the end of `config_lease`. Each releases the
mutex and then closes its handle, by two native calls that may fail or raise, and is told by
the lease which of the two is done. The first two may be tried again; the last gives up the
ownership it records when it has tried often enough, and closes the handle of a mutex that
is still owned.

A lease is seen through attributes that may be there or not, since the finalizers are written for
more than one kind of lease; `YasbLimitora.Guard.GuardLease.observed` is what `getattr` with a
default gives. What makes a run of native calls proper is that a mutex is released while it is owned
and its handle closed after that, and once. A finalizer is right if its runs are so and it says that
it is done exactly if it is, and this is proved for each of the three from the same two methods.
-/

namespace YasbLimitora

namespace Guard

inductive NativeCall
  | releaseMutex
  | closeHandle
deriving DecidableEq

abbrev Native (α : Type) := Prog NativeCall (fun _ => Answer Bool) α

def native (o : NativeCall) : Native (Answer Bool) := Prog.perform o

/-- A `GuardLease`, by its flags. -/
structure GuardLease where
  owned : Bool
  closed : Bool
deriving DecidableEq

/-! ### The lease -/

namespace GuardLease

def fresh : GuardLease := ⟨true, false⟩

/-- An attribute of a lease. It has slots, and no other attribute. -/
def getattr (l : GuardLease) (name : String) : Option Bool :=
  if name = "owned" then some l.owned else if name = "closed" then some l.closed else none

/-- An attribute is set, if there is one. -/
def setattr (l : GuardLease) (name : String) (value : Bool) : GuardLease :=
  if name = "owned" then { l with owned := value }
  else if name = "closed" then { l with closed := value } else l

/-- `GuardLease.release`. -/
def release (l : GuardLease) : Native (Bool × GuardLease) :=
  if !l.owned then return (true, l)
  else if l.closed then return (false, l)
  else do
    let result ← native .releaseMutex
    return if result = .returned true then (true, { l with owned := false }) else (false, l)

/-- `GuardLease.close`. -/
def close (l : GuardLease) : Native (Bool × GuardLease) :=
  if l.closed then return (true, l)
  else if l.owned then return (false, l)
  else do
    let result ← native .closeHandle
    return if result = .returned true then (true, { l with closed := true }) else (false, l)

/-- `marked` of `_close_lease`. -/
def marked (l : GuardLease) (name : String) : Bool := l.getattr name = some true

/-- `observed` of `_close_lease`. -/
def observed (l : GuardLease) (name : String) (value : Bool) : Bool := l.getattr name = some value

/-- `mark` of `_close_lease`. -/
def mark (l : GuardLease) (name : String) : GuardLease := l.setattr name true

end GuardLease

/-! ### The finalizers -/

/-- `RefreshCoordinator._close_lease`. -/
def closeLease (l : GuardLease) : Native (Bool × GuardLease) := do
  let finalized := l.marked "_yasb_finalized"
  let released := finalized || l.marked "_yasb_release_complete" || l.observed "owned" false
  let closed := finalized || l.marked "_yasb_close_complete" || l.observed "closed" true
  let (released, l) ← (if released then pure (released, l) else do
    let (released, l) ← l.release
    return (released || l.observed "owned" false, l))
  let l := if released then l.mark "_yasb_release_complete" else l
  let (closed, l) ← (if released && !closed then do
      let (closed, l) ← l.close
      return (closed || l.observed "closed" true, l)
    else pure (closed, l))
  let l := if closed then l.mark "_yasb_close_complete" else l
  let finalized := released && closed
  return (finalized, if finalized then l.mark "_yasb_finalized" else l)

/-- `RefreshAttempt._release_provider_lease`. -/
def releaseProviderLease (l : GuardLease) : Native (Bool × GuardLease) := do
  let owned := l.getattr "owned"
  let closedState := l.getattr "closed"
  let released := (l.getattr "_yasb_release_complete").getD false
  let closed := (l.getattr "_yasb_close_complete").getD false
  let released := match owned with
    | some owned => released || !owned
    | none => released
  let closed := match closedState with
    | some closedState => closed || closedState
    | none => closed
  let (released, l) ← (if released then pure (released, l) else do
    let (released, l) ← l.release
    return (released, if released then l.setattr "_yasb_release_complete" true else l))
  let (closed, l) ← (if released && !closed then do
      let (closed, l) ← l.close
      return (closed, if closed then l.setattr "_yasb_close_complete" true else l)
    else pure (closed, l))
  return (released && closed, if released && closed then l.setattr "_yasb_finalized" true else l)

/-- `any` of some tries of a method. -/
def anyOf (method : GuardLease → Native (Bool × GuardLease)) : ℕ → GuardLease → Native (Bool × GuardLease)
  | 0, l => return (false, l)
  | tries + 1, l => do
    let (succeeded, l) ← method l
    if succeeded then return (true, l) else anyOf method tries l

/-- The end of `config_lease` from the closing of the handle on. A lease that could not be
released is made to say that it does not own the mutex. -/
def closeReleased (released : Bool) (l : GuardLease) :
    Native (Except ConfigLock.LeaseError Unit × GuardLease) := do
  let l := if released then l else { l with owned := false }
  let (closed, l) ← anyOf GuardLease.close ConfigLock.RELEASE_RETRIES l
  return (if !released then .error .releaseFailed else if !closed then .error .closeFailed else .ok (), l)

/-- The end of `config_lease`. -/
def leaveConfigLease (l : GuardLease) : Native (Except ConfigLock.LeaseError Unit × GuardLease) := do
  let (released, l) ← anyOf GuardLease.release ConfigLock.RELEASE_RETRIES l
  closeReleased released l

/-- A finalizer that is tried again, with what the last try comes to. -/
def attempts (finalizer : GuardLease → Native (Bool × GuardLease)) : ℕ → GuardLease → Native (Bool × GuardLease)
  | 0, l => return (false, l)
  | n + 1, l => do
    let (_, l) ← attempts finalizer n l
    finalizer l

/-! ### The mutex -/

/-- A mutex, as it is for the thread that got it. -/
structure Mutex where
  owned : Bool
  opened : Bool

def Mutex.acquired : Mutex := ⟨true, true⟩

/-- A native call that succeeded. -/
def Mutex.after (w : Mutex) : NativeCall → Mutex
  | .releaseMutex => { w with owned := false }
  | .closeHandle => { w with opened := false }

/-- The native calls come to these results. -/
def answering (results : ℕ → Answer Bool) : Schedule NativeCall (fun _ => Answer Bool) Mutex where
  others _ w := w
  answer n o w := (results n, if results n = .returned true then w.after o else w)

/-- Native calls that were made. -/
abbrev Calls := List (Event NativeCall (fun _ => Answer Bool) Mutex)

/-- **The handle is closed of a mutex that is not owned, and nothing is done twice.** -/
structure Disciplined (calls : Calls) : Prop where
  free : ∀ e ∈ calls, e.op = .closeHandle → e.before.owned = false
  releases : ∀ e ∈ calls, e.op = .releaseMutex → e.before.owned = true
  closes : ∀ e ∈ calls, e.op = .closeHandle → e.before.opened = true

namespace Disciplined

variable {calls more : Calls}

theorem nil : Disciplined [] := ⟨nofun, nofun, nofun⟩

theorem append (h : Disciplined calls) (h' : Disciplined more) : Disciplined (calls ++ more) where
  free := List.forall_mem_append.2 ⟨h.free, h'.free⟩
  releases := List.forall_mem_append.2 ⟨h.releases, h'.releases⟩
  closes := List.forall_mem_append.2 ⟨h.closes, h'.closes⟩

/-- A mutex is released while it is owned. -/
theorem release {w w' : Mutex} {a : Answer Bool} (h : w.owned = true) :
    Disciplined [⟨.releaseMutex, a, w, w'⟩] where
  free := List.forall_mem_singleton.2 nofun
  releases := List.forall_mem_singleton.2 fun _ => h
  closes := List.forall_mem_singleton.2 nofun

/-- A handle is closed while it is open, and its mutex not owned. -/
theorem close {w w' : Mutex} {a : Answer Bool} (h : w.owned = false) (hopened : w.opened = true) :
    Disciplined [⟨.closeHandle, a, w, w'⟩] where
  free := List.forall_mem_singleton.2 fun _ => h
  releases := List.forall_mem_singleton.2 nofun
  closes := List.forall_mem_singleton.2 fun _ => hopened

end Disciplined

/-- A lease records of its mutex what is done. -/
def Tracks (l : GuardLease) (w : Mutex) : Prop := l.owned = w.owned ∧ l.closed = !w.opened

/-- A method keeps the record of the lease, and the discipline, and tells something of the
lease that it leaves. -/
def Keeps {α : Type} (p : Native (α × GuardLease)) (l : GuardLease) (Q : α → GuardLease → Prop) : Prop :=
  Prog.Meets (Set.range answering) (Tracks l) p fun x w calls =>
    Tracks x.2 w ∧ Disciplined calls ∧ Q x.1 x.2

namespace Keeps

variable {α β : Type} {l : GuardLease} {p : Native (α × GuardLease)} {Q : α → GuardLease → Prop}

/-- A lease that nothing is done to keeps its discipline. -/
theorem ret {a : α} (h : Q a l) : Keeps (.ret (a, l)) l Q :=
  Prog.Meets.ret fun _ hw => ⟨hw, .nil, h⟩

/-- What keeps the discipline, step after step, keeps it. -/
theorem bind {f : α × GuardLease → Native (β × GuardLease)} {R : β → GuardLease → Prop} (h : Keeps p l Q)
    (hf : ∀ a l', Q a l' → Keeps (f (a, l')) l' R) : Keeps (p >>= f) l R := by
  refine Prog.Meets.bind (Prog.Meets.conseq h ?_)
  rintro ⟨a, l'⟩ w calls ⟨htracks, hcalls, ha⟩
  refine ⟨Tracks l', htracks, Prog.Meets.conseq (hf a l' ha) ?_⟩
  rintro x w' more ⟨htracks', hmore, hx⟩
  exact ⟨htracks', hcalls.append hmore, hx⟩

/-- What a lease comes to may be weakened. -/
theorem conseq {R : α → GuardLease → Prop} (h : Keeps p l Q) (hQ : ∀ a l', Q a l' → R a l') :
    Keeps p l R :=
  Prog.Meets.conseq h fun _ _ _ hx => ⟨hx.1, hx.2.1, hQ _ _ hx.2.2⟩

/-- The rule of a native call, and of what is recorded of it. -/
theorem call {Q : Bool → GuardLease → Prop} {o : NativeCall} {l' : GuardLease}
    (hcall : ∀ a w w', Tracks l w → Disciplined [⟨o, a, w, w'⟩])
    (hafter : ∀ w, Tracks l w → Tracks l' (w.after o)) (hdone : Q true l') (hfailed : Q false l) :
    Keeps (native o >>= fun result => return if result = .returned true then (true, l') else (false, l)) l Q := by
  refine Prog.Meets.op (fun _ ⟨_, hs⟩ _ _ h => hs ▸ h) ?_
  rintro _ ⟨results, rfl⟩ n w hw
  refine ⟨(· = ((answering results).answer n o w).2), rfl, Prog.Meets.ret ?_⟩
  rintro w' rfl
  by_cases hresult : results n = .returned true
  · simp only [answering, hresult, if_true]
    exact ⟨hafter w hw, hcall _ _ _ hw, hdone⟩
  · simp only [answering, hresult, if_false]
    exact ⟨hw, hcall _ _ _ hw, hfailed⟩

end Keeps

/-! ### The methods -/

/-- A release gives the ownership up if it succeeds, and closes nothing. -/
theorem release_keeps (l : GuardLease) :
    Keeps l.release l fun released l' => l'.closed = l.closed ∧ l'.owned = !released := by
  unfold GuardLease.release
  split
  · rename_i howned
    exact .ret ⟨rfl, by simpa using howned⟩
  split
  · rename_i howned _
    exact .ret ⟨rfl, by simpa using howned⟩
  · rename_i howned hclosed
    have howned : l.owned = true := by simpa using howned
    refine Keeps.call (fun a w w' hw => .release (hw.1.symm.trans howned)) ?_ ⟨rfl, rfl⟩ ⟨rfl, howned⟩
    exact fun w hw => ⟨rfl, hw.2⟩

/-- A close closes the handle if it succeeds, and releases nothing. -/
theorem close_keeps (l : GuardLease) :
    Keeps l.close l fun closed l' => l'.owned = l.owned ∧ l'.closed = closed := by
  unfold GuardLease.close
  split
  · rename_i hclosed
    exact .ret ⟨rfl, hclosed⟩
  split
  · rename_i hclosed _
    exact .ret ⟨rfl, by simpa using hclosed⟩
  · rename_i hclosed howned
    have hclosed : l.closed = false := by simpa using hclosed
    have howned : l.owned = false := by simpa using howned
    refine Keeps.call (fun a w w' hw => .close (hw.1.symm.trans howned) ?_) ?_ ⟨rfl, rfl⟩ ⟨rfl, hclosed⟩
    · simpa [hclosed] using hw.2.symm
    · exact fun w hw => ⟨hw.1, rfl⟩

/-! ### The finalizers -/

/-- A lease of which nothing is left to do. -/
def GuardLease.done (l : GuardLease) : Bool := !l.owned && l.closed

/-- The attributes that a finalizer would note its steps in, which the lease has not. -/
def notes : List String := ["_yasb_release_complete", "_yasb_close_complete", "_yasb_finalized"]

theorem getattr_note (l : GuardLease) : ∀ name ∈ notes, l.getattr name = none := by
  have hnotes : ∀ name ∈ notes, name ≠ "owned" ∧ name ≠ "closed" := by decide
  intro name hname
  rw [GuardLease.getattr, if_neg (hnotes name hname).1, if_neg (hnotes name hname).2]

theorem setattr_note (l : GuardLease) : ∀ name ∈ notes, l.setattr name true = l := by
  have hnotes : ∀ name ∈ notes, name ≠ "owned" ∧ name ≠ "closed" := by decide
  intro name hname
  rw [GuardLease.setattr, if_neg (hnotes name hname).1, if_neg (hnotes name hname).2]

theorem observed_owned (l : GuardLease) : l.observed "owned" false = !l.owned := by
  cases h : l.owned <;> simp [GuardLease.observed, GuardLease.getattr, h]

theorem observed_closed (l : GuardLease) : l.observed "closed" true = l.closed := by
  cases h : l.closed <;> simp [GuardLease.observed, GuardLease.getattr, h]

/-- A finalizer releases the mutex, if that is to be done. -/
theorem releasing_keeps {l : GuardLease} {released : Bool} {f : Bool × GuardLease → Bool × GuardLease}
    (hreleased : released = !l.owned)
    (hf : ∀ x l', l'.owned = !x → (f (x, l')).2 = l' ∧ (f (x, l')).1 = x) :
    Keeps (if released then pure (released, l) else do return f (← l.release)) l fun released l' =>
      l'.closed = l.closed ∧ l'.owned = !released := by
  split
  · exact .ret ⟨rfl, by rw [hreleased, Bool.not_not]⟩
  · refine (release_keeps l).bind fun x l' hl' => ?_
    obtain ⟨hlease, hx⟩ := hf x l' hl'.2
    rw [show f (x, l') = (x, l') from Prod.ext hx hlease]
    exact .ret hl'

/-- A finalizer closes the handle, if that is to be done and may be. -/
theorem closing_keeps {l : GuardLease} {released closed : Bool} {f : Bool × GuardLease → Bool × GuardLease}
    (hreleased : l.owned = !released) (hclosed : closed = l.closed)
    (hf : ∀ x l', l'.closed = x → (f (x, l')).2 = l' ∧ (f (x, l')).1 = x) :
    Keeps (if released && !closed then do return f (← l.close) else pure (closed, l)) l fun closed l' =>
      l'.owned = !released ∧ l'.closed = closed := by
  split
  · refine (close_keeps l).bind fun x l' hl' => ?_
    obtain ⟨hlease, hx⟩ := hf x l' hl'.2
    rw [show f (x, l') = (x, l') from Prod.ext hx hlease]
    exact .ret ⟨hl'.1.trans hreleased, hl'.2⟩
  · exact .ret ⟨hreleased, hclosed.symm⟩

/-- The first finalizer says that it is done exactly if it is. -/
theorem closeLease_keeps (l : GuardLease) : Keeps (closeLease l) l fun finalized l' => finalized = l'.done := by
  have hget : ∀ name ∈ notes, l.marked name = false := by
    intro name hname
    rw [GuardLease.marked, getattr_note l name hname]
    rfl
  have hset : ∀ name ∈ notes, ∀ l : GuardLease, ∀ done : Bool, (if done then l.mark name else l) = l := by
    intro name hname l done
    rw [GuardLease.mark, setattr_note l name hname, ite_self]
  unfold closeLease
  rw [hget _ (by decide), hget _ (by decide), hget _ (by decide), observed_owned, observed_closed]
  refine (releasing_keeps (f := fun x => (x.1 || x.2.observed "owned" false, x.2)) rfl ?_).bind ?_
  · intro x l' hl'
    rw [observed_owned, hl', Bool.not_not, Bool.or_self]
    exact ⟨rfl, rfl⟩
  rintro released l' ⟨hclosed, howned⟩
  dsimp only
  rw [hset _ (by decide)]
  refine (closing_keeps (f := fun x => (x.1 || x.2.observed "closed" true, x.2)) howned ?_ ?_).bind ?_
  · rw [hclosed]
    rfl
  · intro x l'' hl''
    rw [observed_closed, hl'', Bool.or_self]
    exact ⟨rfl, rfl⟩
  rintro closed l'' ⟨howned, hclosed⟩
  dsimp only
  rw [hset _ (by decide), hset _ (by decide)]
  refine .ret ?_
  rw [GuardLease.done, howned, hclosed, Bool.not_not]

/-- So does the second. -/
theorem releaseProviderLease_keeps (l : GuardLease) :
    Keeps (releaseProviderLease l) l fun finalized l' => finalized = l'.done := by
  have hset : ∀ name ∈ notes, ∀ l : GuardLease, ∀ done : Bool, (if done then l.setattr name true else l) = l := by
    intro name hname l done
    rw [setattr_note l name hname, ite_self]
  unfold releaseProviderLease
  rw [getattr_note l "_yasb_release_complete" (by decide), getattr_note l "_yasb_close_complete" (by decide),
    show l.getattr "owned" = some l.owned from rfl, show l.getattr "closed" = some l.closed from rfl]
  refine (releasing_keeps
    (f := fun x => (x.1, if x.1 then x.2.setattr "_yasb_release_complete" true else x.2)) rfl ?_).bind ?_
  · exact fun x l' _ => ⟨hset _ (by decide) l' x, rfl⟩
  rintro released l' ⟨hclosed, howned⟩
  refine (closing_keeps
    (f := fun x => (x.1, if x.1 then x.2.setattr "_yasb_close_complete" true else x.2)) howned hclosed.symm ?_).bind ?_
  · exact fun x l'' _ => ⟨hset _ (by decide) l'' x, rfl⟩
  rintro closed l'' ⟨howned, hclosed⟩
  dsimp only
  rw [hset _ (by decide)]
  refine .ret ?_
  rw [GuardLease.done, howned, hclosed, Bool.not_not]

/-- The operation of the coordinator that makes a native call. -/
def coordinatorOp : NativeCall → YasbLimitora.Op
  | .releaseMutex => .releaseLease
  | .closeHandle => .closeLease

/-- The coordinator is told of a call that raises that it failed. -/
def coordinatorAnswer {V : Type} : (o : NativeCall) → (coordinatorOp o).Resp V → Answer Bool
  | .releaseMutex => .returned
  | .closeHandle => .returned

/-- **What the coordinator does to give up a lease** is what its finalizer does. -/
theorem closeLease_translate {V : Type} (l : GuardLease) (h : l.owned = true → l.closed = false) :
    (closeLease l).translate coordinatorOp (coordinatorAnswer (V := V)) >>=
        (fun x => return (x.1, (⟨!x.2.owned, x.2.closed⟩ : Lease))) =
      RefreshCoordinator.closeLease ⟨!l.owned, l.closed⟩ := by
  obtain ⟨owned, closed⟩ := l
  cases owned with
  | false =>
    cases closed with
    | false =>
      refine congrArg (Prog.op Op.closeLease) (funext fun (result : Bool) => ?_)
      cases result with
      | false => rfl
      | true => rfl
    | true => rfl
  | true =>
    obtain rfl : closed = false := h rfl
    refine congrArg (Prog.op Op.releaseLease) (funext fun (result : Bool) => ?_)
    cases result with
    | false => rfl
    | true =>
      refine congrArg (Prog.op Op.closeLease) (funext fun (result : Bool) => ?_)
      cases result with
      | false => rfl
      | true => rfl

/-- And so does one that is tried again, a number of times. -/
theorem attempts_keeps {finalizer : GuardLease → Native (Bool × GuardLease)}
    (h : ∀ l, Keeps (finalizer l) l fun finalized l' => finalized = l'.done) (n : ℕ) {l : GuardLease}
    (hl : l.done = false) : Keeps (attempts finalizer n l) l fun finalized l' => finalized = l'.done := by
  induction n with
  | zero => exact .ret hl.symm
  | succ n ih => exact ih.bind fun _ l' _ => h l'

/-- Some tries of a method keep what one try keeps. -/
theorem anyOf_keeps {method : GuardLease → Native (Bool × GuardLease)} {P : Bool → GuardLease → Prop}
    (h : ∀ l, P false l → Keeps (method l) l P) (tries : ℕ) {l : GuardLease} (hl : P false l) :
    Keeps (anyOf method tries l) l P := by
  induction tries generalizing l with
  | zero => exact .ret hl
  | succ tries ih =>
    refine (h l hl).bind fun succeeded l' hl' => ?_
    cases succeeded with
    | true => exact .ret hl'
    | false => exact ih hl'

/-! ### The end of the lease of the configuration -/

variable {results : ℕ → Answer Bool} {w : Mutex} {n : ℕ}

theorem release_ends :
    Prog.Ends (answering results) n GuardLease.fresh.release w fun x m w' => m = n + 1 ∧
      (results n = .returned true ∧ x.1 = true ∨
        results n ≠ .returned true ∧ x = (false, .fresh) ∧ w' = w) := by
  refine .op rfl (.ret ⟨rfl, ?_⟩)
  by_cases hresult : results n = .returned true
  · exact .inl ⟨hresult, congrArg Prod.fst (if_pos hresult)⟩
  · exact .inr ⟨hresult, if_neg hresult, if_neg hresult⟩

/-- The tries to release the mutex succeed with one of them, or leave everything as it is. -/
theorem anyOf_release_ends (results : ℕ → Answer Bool) (tries : ℕ) :
    Prog.Ends (answering results) n (anyOf GuardLease.release tries .fresh) w fun x _ w' =>
      (x.1 = true ∧ ∃ i < tries, results (n + i) = .returned true) ∨
        (x = (false, .fresh) ∧ w' = w ∧ ∀ i < tries, results (n + i) ≠ .returned true) := by
  induction tries generalizing n w with
  | zero => exact .ret (.inr ⟨rfl, rfl, nofun⟩)
  | succ tries ih =>
    refine .bind (Prog.Ends.conseq release_ends ?_)
    rintro ⟨released, l⟩ m w' ⟨rfl, ⟨hresult, rfl⟩ | ⟨hresult, hx, rfl⟩⟩
    · exact .ret (.inl ⟨rfl, 0, Nat.succ_pos _, hresult⟩)
    · obtain ⟨rfl, rfl⟩ := Prod.mk.inj hx
      refine Prog.Ends.conseq ih ?_
      rintro x m w'' (⟨hx, i, hi, hsome⟩ | ⟨rfl, rfl, hnone⟩)
      · refine .inl ⟨hx, i + 1, Nat.succ_lt_succ hi, ?_⟩
        rwa [Nat.add_assoc, Nat.add_comm 1] at hsome
      · refine .inr ⟨rfl, rfl, fun i hi => ?_⟩
        cases i with
        | zero => exact hresult
        | succ i =>
          have hlater := hnone i (Nat.lt_of_succ_lt_succ hi)
          rwa [Nat.add_assoc, Nat.add_comm 1] at hlater

/-- What a lease is finalized by: the handle is closed of a mutex that is not owned, nothing
is done twice, and the lease counts as finalized just if both is done. -/
def Finalizes {α : Type} (counts : α → Prop)
    (ran : Ran NativeCall (fun _ => Answer Bool) Mutex (α × GuardLease)) : Prop :=
  Disciplined ran.events ∧ (counts ran.result.1 ↔ ran.world.owned = false ∧ ran.world.opened = false)

/-- A lease is done if its mutex is neither owned nor open. -/
theorem done_iff {l : GuardLease} (h : Tracks l w) : l.done = true ↔ w.owned = false ∧ w.opened = false := by
  rw [GuardLease.done, h.1, h.2, Bool.and_eq_true, Bool.not_eq_true', Bool.not_eq_true']

/-- **A finalizer that keeps the discipline** finalizes, whatever the native calls come to. -/
theorem Keeps.finalizes {p : Native (Bool × GuardLease)}
    (h : Keeps p .fresh fun finalized l => finalized = l.done) (results : ℕ → Answer Bool) :
    Finalizes (· = true) (Prog.run (answering results) 0 p .acquired) := by
  obtain ⟨htracks, hcalls, hdone⟩ := h (answering results) ⟨results, rfl⟩ 0 .acquired ⟨rfl, rfl⟩
  refine ⟨hcalls, ?_⟩
  rw [hdone]
  exact done_iff htracks

/-- Of a mutex that is released the handle is closed in order. -/
theorem closeReleased_keeps {l : GuardLease} (howned : l.owned = false) (hclosed : l.closed = false) :
    Keeps (closeReleased true l) l fun result l' => result = .ok () ↔ l'.done = true := by
  have hclose := anyOf_keeps (P := fun closed l => l.owned = false ∧ l.closed = closed)
    (fun l hl => (close_keeps l).conseq fun _ _ h => ⟨h.1.trans hl.1, h.2⟩) ConfigLock.RELEASE_RETRIES
    ⟨howned, hclosed⟩
  refine hclose.bind fun closed l' hl' => .ret ?_
  rw [GuardLease.done, hl'.1, hl'.2]
  cases closed with
  | false => exact iff_of_false nofun nofun
  | true => exact iff_of_true rfl rfl

/-- The first call of the end, where the mutex could not be released, is to close its handle. -/
theorem closeReleased_false (results : ℕ → Answer Bool) (l : GuardLease) (h : l.closed = false) :
    ∃ w' rest, (Prog.run (answering results) n (closeReleased false l) w).events =
      ⟨.closeHandle, results n, w, w'⟩ :: rest := by
  obtain ⟨owned, closed⟩ := l
  obtain rfl : closed = false := h
  exact ⟨_, _, rfl⟩

/-- The end of `config_lease` keeps to it just if one of its tries to release succeeds. -/
theorem leaveConfigLease_finalizes_iff :
    Finalizes (· = .ok ()) (Prog.run (answering results) 0 (leaveConfigLease .fresh) .acquired) ↔
      ∃ n < ConfigLock.RELEASE_RETRIES, results n = .returned true := by
  have hkeeps := anyOf_keeps (P := fun released l => l.closed = false ∧ l.owned = !released)
    (fun l hl => (release_keeps l).conseq fun _ _ h => ⟨h.1.trans hl.1, h.2⟩) ConfigLock.RELEASE_RETRIES
    (l := .fresh) ⟨rfl, rfl⟩ (answering results) ⟨results, rfl⟩ 0 .acquired ⟨rfl, rfl⟩
  have hends := anyOf_release_ends results ConfigLock.RELEASE_RETRIES (n := 0) (w := .acquired)
  unfold Prog.Ends at hends
  simp only [Nat.zero_add] at hends
  unfold leaveConfigLease
  rw [Prog.run_bind]
  generalize Prog.run (answering results) 0 (anyOf GuardLease.release ConfigLock.RELEASE_RETRIES .fresh)
    .acquired = first at hkeeps hends
  obtain ⟨⟨released, l⟩, w, calls⟩ := first
  obtain ⟨htracks, hcalls, hclosed, howned⟩ := hkeeps
  rcases hends with ⟨hreleased, hsome⟩ | ⟨hx, hw, hnone⟩
  · obtain rfl : released = true := hreleased
    refine iff_of_true ?_ hsome
    have hrest := closeReleased_keeps howned hclosed (answering results) ⟨results, rfl⟩ (0 + calls.length) w htracks
    exact ⟨hcalls.append hrest.2.1, hrest.2.2.trans (done_iff hrest.1)⟩
  · obtain ⟨rfl, rfl⟩ := Prod.mk.inj hx
    obtain rfl : w = .acquired := hw
    refine iff_of_false ?_ fun ⟨n, hn, hsome⟩ => hnone n hn hsome
    rintro ⟨hdisciplined, -⟩
    obtain ⟨w', rest, hevents⟩ := closeReleased_false results .fresh rfl (n := 0 + calls.length)
      (w := .acquired)
    have hfree := hdisciplined.free ⟨.closeHandle, results (0 + calls.length), .acquired, w'⟩
      (List.mem_append_right _ (hevents ▸ List.mem_cons_self)) rfl
    exact Bool.false_ne_true hfree.symm

/-- **Each finalizer closes the handle of a mutex that it released, does nothing twice, and
counts a lease as finalized just if both is done**, however often it is tried and whatever
the native calls come to; but for the end of `config_lease`, where one of the tries to
release has to succeed. -/
theorem finalizes_iff (results : ℕ → Answer Bool) :
    (∀ n, Finalizes (· = true) (Prog.run (answering results) 0 (attempts closeLease n .fresh) .acquired)) ∧
      (∀ n, Finalizes (· = true)
        (Prog.run (answering results) 0 (attempts releaseProviderLease n .fresh) .acquired)) ∧
      (Finalizes (· = .ok ()) (Prog.run (answering results) 0 (leaveConfigLease .fresh) .acquired) ↔
        ∃ n < ConfigLock.RELEASE_RETRIES, results n = .returned true) :=
  ⟨fun n => (attempts_keeps closeLease_keeps n rfl).finalizes results,
    fun n => (attempts_keeps releaseProviderLease_keeps n rfl).finalizes results,
    leaveConfigLease_finalizes_iff⟩

/-- Where every call to release fails, the handle is closed of a mutex that is owned. -/
theorem not_finalizes_config :
    ¬Finalizes (· = .ok ()) (Prog.run (answering fun _ => .returned false) 0 (leaveConfigLease .fresh) .acquired) := by
  intro h
  obtain ⟨n, -, hresult⟩ := leaveConfigLease_finalizes_iff.1 h
  cases hresult

end Guard

end YasbLimitora
